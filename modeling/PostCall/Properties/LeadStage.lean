import PostCall.Machine.Leads

/-!
# Lead stages

Every lead stage job overwrites the stage of its lead when a worker gets to it, and the workers take
the jobs by priority before age. The stage of a lead is what the last of these writes set it to, which
need not be the write of the job that was created last.
-/

namespace PostCall.Properties
open PostCall.Library PostCall.Python PostCall.Model PostCall.Machine

variable {cfg : Settings} {text : Text} {w w₀ : World} {a : Action} {as : List Action} {id : UUID}

/-- The jobs whose stage the actions commit, in this order. -/
def stageWrites (cfg : Settings) (text : Text) : World → List Action → List ClaimedResultJob
  | _, [] => []
  | w, a :: as => (stageWrite? w a).toList ++ stageWrites cfg text (World.step cfg text w a) as

/-- Those of one lead. -/
def stageWritesOf (cfg : Settings) (text : Text) (id : UUID) (w : World) (as : List Action) :
    List ClaimedResultJob :=
  (stageWrites cfg text w as).filter (·.leadId = id)

lemma stageWrites_append {as bs : List Action} : stageWrites cfg text w (as ++ bs) =
    stageWrites cfg text w as ++ stageWrites cfg text (as.foldl (World.step cfg text) w) bs := by
  induction as generalizing w with
  | nil => rfl
  | cons a as ih => rw [List.cons_append, stageWrites, ih, stageWrites, List.append_assoc]; rfl

/-- What the writes of a run have to do with its jobs: a lead stage job that has succeeded has
written, and so has an execution that goes on to report it; who has written is a job. -/
structure Traced (w : World) (writes : List ClaimedResultJob) : Prop where
  succeeded : ∀ row ∈ w.db.queue.jobs.rows, row.jobType = .leadStageUpdate →
    row.status = .succeeded → ∃ s ∈ writes, s.id = row.id ∧ s.leadId = row.leadId
  processed : ∀ f ∈ w.inflight, ∀ snapshot, f.work = .processed snapshot none →
    snapshot.jobType = .leadStageUpdate → snapshot ∈ writes
  written : ∀ s ∈ writes, s.jobType = .leadStageUpdate ∧
    ∃ row ∈ w.db.queue.jobs.rows, WorkOf row.toJobIdentity (.result s)

/-- A lead stage job that has succeeded after an action had done so before, or the action reports an
execution of it whose side effect is committed. -/
lemma succeeded_step (sound : Sound w) :
    ∀ row ∈ (World.step cfg text w a).db.queue.jobs.rows, row.jobType = .leadStageUpdate →
      row.status = .succeeded →
      (∃ row₀ ∈ w.db.queue.jobs.rows, row.toJobIdentity = row₀.toJobIdentity ∧
        row₀.status = .succeeded) ∨
      ∃ f ∈ w.inflight, ∃ snapshot, f.work = .processed snapshot none ∧
        WorkOf row.toJobIdentity f.work := by
  refine (step_path cfg text sound a).invariant
    (I := fun db => ∀ row ∈ db.queue.jobs.rows, row.jobType = .leadStageUpdate →
      row.status = .succeeded →
      (∃ row₀ ∈ w.db.queue.jobs.rows, row.toJobIdentity = row₀.toJobIdentity ∧
        row₀.status = .succeeded) ∨
      ∃ f ∈ w.inflight, ∃ snapshot, f.work = .processed snapshot none ∧
        WorkOf row.toJobIdentity f.work)
    (fun row mem _ status => .inl ⟨row, mem, rfl, status⟩)
    fun db l db' ih m allowed row mem type status => ?_
  rcases (m.effect.rows row).1 mem with ⟨mem, _⟩ | born | after
  · exact ih row mem type status
  · obtain ⟨new, rfl⟩ := m.pristine born
    cases status
  · -- only a completion leaves a job succeeded
    cases l with
    | succeed job =>
      cases after
      cases allowed with
      | orchestrated root => cases root.symm.trans type
      | @report n f outcome conclusion clock job' _ _ hf ends mem of moves =>
        right
        obtain rfl : job = job' := moves.1.1
        refine ⟨f, List.mem_of_getElem? hf, ?_⟩
        obtain ⟨work, claim⟩ := f
        cases concludes_of_conclusion ends with
        | processed => exact ⟨_, rfl, of⟩
        | unprocessed => cases moves.2 _ rfl
        | analysed | unanalysed =>
          cases of with
          | analysis _ ofType => cases ofType.symm.trans type
        | fetched | unfetched =>
          cases of with
          | recording _ ofType => cases ofType.symm.trans type
    | fail job failure clock =>
      simp only [Label.after?] at after
      split at after <;> (cases after; cases status)
    | claim => cases after; cases status
    | recover => cases after; cases status
    | refuse => cases after; cases status
    | aside => cases after
    | create => cases after

lemma snapshot_of_work {job : JobIdentity} {s : ClaimedResultJob} (of : WorkOf job (.result s)) :
    s.id = job.id ∧ s.leadId = job.leadId ∧ s.jobType = job.jobType ∧ s.payload = job.payload := by
  cases of with
  | result same => subst same; exact ⟨rfl, rfl, rfl, rfl⟩

lemma snapshot_of_processed {job : JobIdentity} {s : ClaimedResultJob} {raised : Option PyError}
    (of : WorkOf job (.processed s raised)) :
    s.id = job.id ∧ s.leadId = job.leadId ∧ s.jobType = job.jobType ∧ s.payload = job.payload := by
  cases of with
  | processed same => subst same; exact ⟨rfl, rfl, rfl, rfl⟩

/-- The executions that report a committed side effect after an action: they did so before, or the
action commits it. -/
lemma processed_step {f : InFlight} (mem : f ∈ (World.step cfg text w a).inflight)
    {snapshot : ClaimedResultJob} (work : f.work = .processed snapshot none)
    (type : snapshot.jobType = .leadStageUpdate) :
    (∃ f ∈ w.inflight, f.work = .processed snapshot none) ∨ snapshot ∈ stageWrite? w a := by
  have claim : ∀ {α : Type} {x : Tx (List α)} {toWork : α → Work},
      (∀ s, toWork s ≠ .processed snapshot none) → f ∈ (w.claim x toWork).inflight →
      f ∈ w.inflight := by
    intro α x toWork other mem
    unfold World.claim at mem
    split at mem
    · rcases List.mem_append.1 mem with mem | mem
      · exact mem
      · simp only [List.map_map, List.mem_map, Function.comp_apply] at mem
        obtain ⟨s, _, rfl⟩ := mem
        exact absurd work (other s)
    · exact mem
  cases a with
  | createIfAbsent => exact .inl ⟨f, mem, work⟩
  | recoverStaleRunningJobs => exact .inl ⟨f, mem, work⟩
  | endInteraction => exact .inl ⟨f, mem, work⟩
  | legacyTask => exact .inl ⟨f, mem, work⟩
  | orchestrate => exact .inl ⟨f, mem, work⟩
  | claimAnalyses => exact .inl ⟨f, claim (fun _ e => by cases e) mem, work⟩
  | claimRecordings => exact .inl ⟨f, claim (fun _ e => by cases e) mem, work⟩
  | claimResults => exact .inl ⟨f, claim (fun _ e => by cases e) mem, work⟩
  | crash n => exact .inl ⟨f, List.mem_of_mem_eraseIdx mem, work⟩
  | report n outcome clock =>
    simp only [World.step, World.report] at mem
    split at mem
    case h_2 => exact .inl ⟨f, mem, work⟩
    case h_1 =>
      split at mem
      · exact .inl ⟨f, List.mem_of_mem_eraseIdx mem, work⟩
      · exact .inl ⟨f, mem, work⟩
  | processResult n fault =>
    rcases processResult_cases w n fault with ⟨result, number, e⟩ | ⟨same, _⟩
    case inr =>
      rw [World.step, same] at mem
      exact .inl ⟨f, mem, work⟩
    cases ran : ResultWorkerService.process result fault w.db with
    | error raised db =>
      simp only [World.step, World.processResult, e, ran] at mem
      rcases List.mem_or_eq_of_mem_set mem with mem | rfl
      · exact .inl ⟨f, mem, work⟩
      · cases work
    | ok u db =>
      simp only [World.step, World.processResult, e, ran] at mem
      rcases List.mem_or_eq_of_mem_set mem with mem | rfl
      · exact .inl ⟨f, mem, work⟩
      · cases work
        right
        simp only [stageWrite?, e, commit, ran, Option.isSome_some, and_true, if_pos type]
        rfl

/-- Every step keeps the stages traced to their writes. -/
lemma Traced.step {writes : List ClaimedResultJob} (h : Traced w writes) (sound : Sound w) :
    Traced (World.step cfg text w a) (writes ++ (stageWrite? w a).toList) := by
  have persists : ∀ row ∈ w.db.queue.jobs.rows,
      ∃ row' ∈ (World.step cfg text w a).db.queue.jobs.rows,
        row'.toJobIdentity = row.toJobIdentity := fun row mem =>
    Path.identity (step_path cfg text sound a) mem
  refine ⟨fun row mem type status => ?_, fun f mem snapshot work type => ?_, fun s mem => ?_⟩
  · rcases succeeded_step sound row mem type status with
      ⟨row₀, mem₀, same, status₀⟩ | ⟨f, mem, snapshot, work, of⟩
    · rw [same] at type ⊢
      obtain ⟨s, mem, ids⟩ := h.succeeded row₀ mem₀ type status₀
      exact ⟨s, List.mem_append_left _ mem, ids⟩
    · rw [work] at of
      obtain ⟨ids, leads, types, _⟩ := snapshot_of_processed of
      have written := h.processed f mem snapshot work (types.trans type)
      exact ⟨snapshot, List.mem_append_left _ written, ids, leads⟩
  · rcases processed_step mem work type with ⟨f, mem, work⟩ | write
    · exact List.mem_append_left _ (h.processed f mem snapshot work type)
    · exact List.mem_append_right _ (Option.mem_toList.2 write)
  · rcases List.mem_append.1 mem with mem | mem
    · obtain ⟨type, row, rowMem, of⟩ := h.written s mem
      obtain ⟨row', mem', same⟩ := persists row rowMem
      exact ⟨type, row', mem', same ▸ of⟩
    · obtain ⟨type, n, _, _, _, hf⟩ := execution_of_write (Option.mem_toList.1 mem)
      obtain ⟨row, rowMem, of⟩ := sound _ (List.mem_of_getElem? hf)
      obtain ⟨row', mem', same⟩ := persists row rowMem
      exact ⟨type, row', mem', same ▸ of⟩

lemma traced_of_run (init : Initial w₀) (as : List Action) :
    Traced (as.foldl (World.step cfg text) w₀) (stageWrites cfg text w₀ as) := by
  induction as using List.reverseRecOn with
  | nil =>
    refine ⟨fun row mem => ?_, fun f mem => ?_, fun s mem => by cases mem⟩
    · rw [List.foldl_nil, init.1] at mem
      cases mem
    · rw [List.foldl_nil, init.2] at mem
      cases mem
  | append_singleton as a ih =>
    have run : Run (World.step cfg text) anyStep w₀ as (as.foldl (World.step cfg text) w₀) :=
      .of_foldl as
    have sound := sound_of_run run (sound_of_idle init.2)
    rw [stageWrites_append, List.foldl_append]
    simpa only [stageWrites, List.append_nil, List.foldl_cons, List.foldl_nil] using ih.step sound

/-- The stage of a lead is what the last write to it asks for. -/
lemma lead_of_run {lead : Lead} (found : w₀.db.leads.find? id = some lead) (as : List Action) :
    ∃ lead', (as.foldl (World.step cfg text) w₀).db.leads.find? id = some lead' ∧
      match (stageWritesOf cfg text id w₀ as).getLast? with
      | some s => carriedStage s.payload = .ok (.str lead'.stage)
      | none => lead' = lead := by
  induction as using List.reverseRecOn with
  | nil => exact ⟨lead, found, rfl⟩
  | append_singleton as a ih =>
    obtain ⟨lead₁, found₁, before⟩ := ih
    rw [List.foldl_append]
    obtain ⟨lead', found', outcome⟩ := @lead_step cfg text _ a _ _ found₁
    refine ⟨lead', found', ?_⟩
    simp only [stageWritesOf, stageWrites_append, stageWrites, List.append_nil,
      List.filter_append] at before ⊢
    rcases outcome with ⟨s, write, own, carried⟩ | ⟨others, rfl⟩
    · have last : (stageWrite? (as.foldl (World.step cfg text) w₀) a).toList.filter
          (·.leadId = id) = [s] := by
        rw [Option.mem_def.1 write]
        exact List.filter_eq_self.2 fun s' h => by simpa [List.mem_singleton.1 h] using own
      rw [last, List.getLast?_concat]
      exact carried
    · have none : (stageWrite? (as.foldl (World.step cfg text) w₀) a).toList.filter
          (·.leadId = id) = [] :=
        List.filter_eq_nil_iff.2 fun s h => by simpa using others s (Option.mem_toList.1 h)
      rw [none, List.append_nil]
      exact before

/-- In every run of the system, a lead stage job of a lead that has succeeded has committed its write,
and the stage of the lead is the mapping of the call stage that the lead stage job carries whose write
was committed last. -/
theorem lead_stage_of_run (init : Initial w₀) {lead : Lead}
    (found : w₀.db.leads.find? id = some lead) (as : List Action) :
    let w := as.foldl (World.step cfg text) w₀
    let writes := stageWritesOf cfg text id w₀ as
    (∀ row ∈ w.db.queue.jobs.rows, row.jobType = .leadStageUpdate → row.leadId = id →
        row.status = .succeeded → ∃ s ∈ writes, s.id = row.id) ∧
      ∃ lead', w.db.leads.find? id = some lead' ∧
        match writes.getLast? with
        | some s => ∃ row ∈ w.db.queue.jobs.rows, row.id = s.id ∧ row.jobType = .leadStageUpdate ∧
            row.leadId = id ∧ carriedStage row.payload = .ok (.str lead'.stage)
        | none => lead' = lead := by
  have traced := @traced_of_run cfg text _ init as
  obtain ⟨lead', found', outcome⟩ := @lead_of_run cfg text _ _ _ found as
  refine ⟨fun row mem type own status => ?_, lead', found', ?_⟩
  · obtain ⟨s, mem, ids, leads⟩ := traced.succeeded row mem type status
    exact ⟨s, List.mem_filter.2 ⟨mem, by simpa using leads.trans own⟩, ids⟩
  · cases last : (stageWritesOf cfg text id w₀ as).getLast? with
    | none =>
      rw [last] at outcome
      exact outcome
    | some s =>
      rw [last] at outcome
      obtain ⟨mem, own⟩ := List.mem_filter.1 (List.mem_of_getLast? last)
      obtain ⟨type, row, rowMem, of⟩ := traced.written s mem
      obtain ⟨ids, leads, types, payload⟩ := snapshot_of_work of
      exact ⟨row, rowMem, ids.symm, types.symm.trans type,
        leads.symm.trans (by simpa using own), payload ▸ outcome⟩

/-- Two interactions of one lead, and nothing else. -/
def twoCalls : World where
  db := {
    queue := .empty
    usage := .empty
    interactions := ⟨[.plain, { Interaction.plain with id := 2 }], by decide +kernel,
      by decide +kernel⟩
    leads := ⟨[⟨1, "new"⟩], by simp, by simp⟩
    auditEvents := [] }
  inflight := []

/-- A lead stage job of one of the two interactions. -/
def leadJob (id interactionId : UUID) (priority : JobPriority) (callStage : String)
    (createdAt : Time) : NewJob :=
  { NewJob.plain id .leadStageUpdate
      [("analysis_result", .dict [("call_stage", .str callStage)])] with
    interactionId := interactionId
    priority := priority
    createdAt := createdAt }

/-- The newer job has the higher priority, so that the older one writes last. -/
def olderLast : List Action := [
  .createIfAbsent (leadJob 10 1 .low "not_interested" 0),
  .createIfAbsent (leadJob 11 2 .high "demo_booked" 1),
  .claimResults "worker" 2 (ClaimQuery.at 1),
  .processResult 0 none,
  .report 0 .result fun _ => 1,
  .processResult 0 none,
  .report 0 .result fun _ => 1]

/-- The two calls after these actions. -/
def afterCalls (as : List Action) : World := as.foldl (World.step settings .plain) twoCalls

theorem lead_stage_of_run_plain :
    (stageWritesOf settings .plain 1 twoCalls olderLast).map (·.id) = [11, 10] ∧
      ∃ lead, (afterCalls olderLast).db.leads.find? 1 = some lead := by
  have found : twoCalls.db.leads.find? 1 = some ⟨1, "new"⟩ := rfl
  obtain ⟨_, lead, found', _⟩ := @lead_stage_of_run settings .plain twoCalls 1 ⟨rfl, rfl⟩ _ found
    olderLast
  exact ⟨by decide +kernel, lead, found'⟩

/-- Whether a payload asks for this stage. -/
def carries (payload : Dict) (stage : String) : Bool :=
  match carriedStage payload with
  | .ok (.str s) => s = stage
  | _ => false

/-- The lead ends at the stage of the older call. -/
theorem lead_stage_not_newest :
    ¬ ∀ (cfg : Settings) (text : Text) (w₀ : World) (as : List Action) (id : UUID),
      Initial w₀ →
      let w := as.foldl (World.step cfg text) w₀
      (∀ row ∈ w.db.queue.jobs.rows, row.jobType = .leadStageUpdate → row.leadId = id →
        row.status = .succeeded) →
      ∀ newest ∈ w.db.queue.jobs.rows, newest.jobType = .leadStageUpdate → newest.leadId = id →
      (∀ row ∈ w.db.queue.jobs.rows, row.jobType = .leadStageUpdate → row.leadId = id →
        row.id ≠ newest.id → row.createdAt < newest.createdAt) →
      ∀ lead, w.db.leads.find? id = some lead →
        carriedStage newest.payload = .ok (.str lead.stage) := by
  intro newestWins
  obtain ⟨newest, mem, type, own, last, other⟩ : ∃ newest ∈ (afterCalls olderLast).db.queue.jobs.rows,
      newest.jobType = .leadStageUpdate ∧ newest.leadId = 1 ∧
        (∀ row ∈ (afterCalls olderLast).db.queue.jobs.rows, row.jobType = .leadStageUpdate →
          row.leadId = 1 → row.id ≠ newest.id → row.createdAt < newest.createdAt) ∧
        carries newest.payload "closed_lost" = false := by decide +kernel
  obtain ⟨lead, leadMem, ofId, stage⟩ : ∃ lead ∈ (afterCalls olderLast).db.leads.rows,
      lead.id = 1 ∧ lead.stage = "closed_lost" := by decide +kernel
  have wins := newestWins settings .plain twoCalls olderLast 1 ⟨rfl, rfl⟩ (by decide +kernel) newest
    mem type own last lead (Table.find?_eq_some.2 ⟨leadMem, ofId⟩)
  rw [carries, wins, stage] at other
  exact absurd other (by decide)

end PostCall.Properties
