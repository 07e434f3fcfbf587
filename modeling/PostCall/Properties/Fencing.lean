import PostCall.Properties.Terminal

/-!
# Fencing

A report is checked against the status of the row, which does not tell two claims of the job apart.
The report of a superseded claim is without effect exactly if it is a success and the row is not
running; any other one that is committed takes the job from the worker that has it now, or brings it
back.
-/

namespace PostCall.Properties
open PostCall.Library PostCall.Python PostCall.Model PostCall.Machine

variable {cfg : Settings} {text : Text} {w w₀ : World} {a : Action} {as : List Action}

/-- No claim and no recovery of the job came after the claim of the execution. -/
def Current (w : World) (f : InFlight) : Prop :=
  f.claim = w.db.queue.timesClaimed f.jobId ∧
    (w.db.queue.history.filter fun e => e = .claimed f.jobId || e = .recovered f.jobId).head? =
      some (.claimed f.jobId)

instance : Decidable (Current w f) := inferInstanceAs (Decidable (_ ∧ _))

/-- A report of a superseded claim leaves the queue and the ledger as they are. -/
def Respects (cfg : Settings) (text : Text) (w : World) (a : Action) : Prop :=
  ∀ n outcome clock f, a = .report n outcome clock → w.inflight[n]? = some f →
    (f.work.conclusion cfg text clock outcome).isSome → ¬ Current w f →
    (World.step cfg text w a).db.queue = w.db.queue ∧
      (World.step cfg text w a).db.usage = w.db.usage

/-- A report that is committed is made under the latest claim, or is the success of a job that is not
running. -/
def Guarded (cfg : Settings) (text : Text) (w : World) (a : Action) : Prop :=
  ∀ n outcome clock f conclusion, a = .report n outcome clock → w.inflight[n]? = some f →
    f.work.conclusion cfg text clock outcome = some conclusion →
    (commit (Tx.conclude cfg clock f.jobId conclusion) w.db).isSome →
    Current w f ∨ (∃ complete, conclusion = .ok complete) ∧
      ∀ job ∈ w.db.queue.jobs.rows, job.id = f.jobId → job.status ≠ .running

section Report

variable {n : ℕ} {outcome : Outcome} {clock : Clock} {f : InFlight}
  {conclusion : Except Failure (Tx Unit)}

/-- A report commits the transaction that concludes it. -/
lemma report_db (hf : w.inflight[n]? = some f)
    (hc : f.work.conclusion cfg text clock outcome = some conclusion) :
    (World.step cfg text w (.report n outcome clock)).db =
      World.transact w.db (Tx.conclude cfg clock f.jobId conclusion) := by
  simp only [World.step, World.report, hf, hc]

/-- A move that writes into the history changes the queue. -/
lemma history_ne {db db' : Db} {l : Label} (m : Move cfg db l db') (ne : l.events cfg ≠ []) :
    db'.queue.history ≠ db.queue.history := by
  rw [m.effect.history]
  intro e
  exact ne (List.append_left_eq_self.1 e)

/-- A report that was committed left everything alone exactly if it was a success and the job was not
running. -/
lemma unchanged_iff {db db' : Db} {work : Work} {job : InteractionJob}
    (mem : job ∈ db.queue.jobs.rows) (of : WorkOf job.toJobIdentity work)
    (hc : work.conclusion cfg text clock outcome = some conclusion)
    (e : Tx.conclude cfg clock work.jobId conclusion db = .ok ⟨⟩ db') :
    db'.queue = db.queue ∧ db'.usage = db.usage ↔
      (∃ complete, conclusion = .ok complete) ∧ job.status ≠ .running := by
  cases conclusion with
  | error failure =>
    have m : Move cfg db (.fail job failure clock) db' := move_of_failed mem of e
    -- a failure is written into the history whatever status the row has
    have written : (Label.fail job failure clock).events cfg ≠ [] := by
      simp only [Label.events]
      split <;> simp
    constructor
    · rintro ⟨same, _⟩
      exact absurd (congrArg Queue.history same) (history_ne m written)
    · rintro ⟨⟨_, h⟩, _⟩
      cases h
  | ok complete =>
    cases completed_of_ok mem of hc e with
    | idle idle => exact ⟨fun _ => ⟨⟨complete, rfl⟩, idle⟩, fun _ => ⟨rfl, rfl⟩⟩
    | done before m _ after =>
      constructor
      · rintro ⟨same, _⟩
        have written := history_ne m (by simp [Label.events])
        rw [← after.queue, before.queue] at written
        exact absurd (congrArg Queue.history same) written
      · rintro ⟨_, idle⟩
        cases m with
        | succeed _ running => exact absurd running idle

end Report

/-- A step respects the fence exactly if its report is guarded. -/
lemma respects_iff_guarded (sound : Sound w) : Respects cfg text w a ↔ Guarded cfg text w a := by
  constructor
  · intro respects n outcome clock f conclusion e hf hc commits
    subst e
    obtain ⟨⟨⟨⟩, db'⟩, e⟩ := Option.isSome_iff_exists.1 commits
    obtain ⟨job, mem, of⟩ := sound f (List.mem_of_getElem? hf)
    by_cases current : Current w f
    · exact .inl current
    · right
      have same := respects n outcome clock f rfl hf (by rw [hc]; rfl) current
      rw [report_db hf hc, World.transact, e] at same
      obtain ⟨success, idle⟩ := (unchanged_iff mem of hc (commit_eq_some.1 e)).1 same
      refine ⟨success, fun row mem' id => ?_⟩
      rwa [Table.eq_of_key mem' mem (id.trans of.jobId)]
  · intro guarded n outcome clock f e hf hc superseded
    subst e
    obtain ⟨conclusion, hc⟩ := Option.isSome_iff_exists.1 hc
    obtain ⟨job, mem, of⟩ := sound f (List.mem_of_getElem? hf)
    rw [report_db hf hc, World.transact]
    cases e : commit (Tx.conclude cfg clock f.jobId conclusion) w.db with
    | none => exact ⟨rfl, rfl⟩
    | some result =>
      obtain ⟨⟨⟩, db'⟩ := result
      have guard := guarded n outcome clock f conclusion rfl hf hc (by rw [e]; rfl)
      obtain ⟨success, idle⟩ := guard.resolve_left superseded
      exact (unchanged_iff mem of hc (commit_eq_some.1 e)).2 ⟨success, idle job mem of.jobId.symm⟩

/-- The runs in which every report of a superseded claim is without effect are the runs in which
every report is guarded. -/
theorem fenced_iff_guarded (init : Initial w₀) :
    Run (World.step cfg text) (Respects cfg text) w₀ as w ↔
      Run (World.step cfg text) (Guarded cfg text) w₀ as w := by
  have keep : ∀ w a, Sound w → Sound (World.step cfg text w a) := fun _ _ sound => sound_step sound
  constructor
  · intro run
    refine (run.strengthen (sound_of_idle init.2) fun w a h _ => keep w a h).mono fun w a h => ?_
    exact (respects_iff_guarded h.1).1 h.2
  · intro run
    refine (run.strengthen (sound_of_idle init.2) fun w a h _ => keep w a h).mono fun w a h => ?_
    exact (respects_iff_guarded h.1).2 h.2

/-- The second claim reports while the first one is still in flight. -/
theorem fenced_iff_guarded_plain :
    Run (World.step settings .plain) (Respects settings .plain) (.ofInteraction .plain)
      (overtaken ++ [.report 1 recordingFound fun _ => seconds 302])
      (after (overtaken ++ [.report 1 recordingFound fun _ => seconds 302])) := by
  refine (fenced_iff_guarded ⟨rfl, rfl⟩).2 ?_
  have silent : ∀ w a, (∀ n outcome clock, a ≠ .report n outcome clock) →
      Guarded settings .plain w a := fun _ _ h n outcome clock _ _ e => absurd e (h n outcome clock)
  refine .cons (silent _ _ nofun) (.cons (silent _ _ nofun) (.cons (silent _ _ nofun)
    (.cons (silent _ _ nofun) (.cons ?_ .nil))))
  -- the second worker holds the latest claim
  rintro _ _ _ f _ ⟨⟩ hf _ _
  cases hf
  exact .inl (by decide)

/-- The first worker reports a success after the second one has claimed the job. -/
theorem not_fenced : ¬ ∀ as a, Respects settings .plain (after as) a := by
  intro h
  have same := (h overtaken (.report 0 recordingFound fun _ => seconds 302) 0 _ _ _ rfl rfl rfl
    (by decide)).1
  have changed : (after (overtaken ++
      [.report 0 recordingFound fun _ => seconds 302])).db.queue.jobs.rows.map (·.status) ≠
      (after overtaken).db.queue.jobs.rows.map (·.status) := by decide
  exact changed (congrArg (fun q : Queue => q.jobs.rows.map (·.status)) same)

end PostCall.Properties
