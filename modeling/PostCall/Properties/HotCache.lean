import PostCall.Machine.Analyses
import PostCall.Machine.Findings
import PostCall.Properties.Analysed
import PostCall.Properties.Shape

/-!
# The hot cache

The dashboard reads the row of an interaction: what the analysis found is in its metadata, and where
the recording is stored in a column. Both repeat what the job of the worker was completed with. The
job and the row are written in one transaction, a retry that completes the job again overwrites both,
and nobody else writes these columns, except that an orchestration sets the stage of a short call. So
whatever the workers, their retries and the recoveries do, and in whichever order, the row shows what
the job has, or, as long as no job was ever completed, what it showed at first.
-/

namespace PostCall.Properties
open PostCall.Library PostCall.Python PostCall.Model PostCall.Machine LLMWorkerService

variable {cfg : Settings} {text : Text} {w w₀ : World} {as : List Action} {a : Action} {db db' : Db}
  {type : JobType} {id : UUID} {interaction interaction₀ : Interaction} {key : String}

/-! ### A column that shows the findings of a kind of job -/

section Column

variable {α : Type} {column : Interaction → α} {fits : Dict → α → Prop}

/-- The column of the interaction shows what the job of this type has found, and is as at first if
there is no such finding. -/
def Mirrors (type : JobType) (column : Interaction → α) (fits : Dict → α → Prop)
    (interaction₀ : Interaction) (id : UUID) (db : Db) : Prop :=
  ∃ interaction, db.interactions.find? id = some interaction ∧
    (∀ result, Found db type id result → fits result (column interaction)) ∧
    ((∀ result, ¬ Found db type id result) → column interaction = column interaction₀)

/-- A column mirrors as long as it and the findings stay. -/
lemma Mirrors.of_same (h : Mirrors type column fits interaction₀ id db)
    (found : ∀ result, Found db' type id result ↔ Found db type id result)
    (kept : ∀ i, db.interactions.find? id = some i →
      ∃ i', db'.interactions.find? id = some i' ∧ column i' = column i) :
    Mirrors type column fits interaction₀ id db' := by
  obtain ⟨i, row, said, silent⟩ := h
  obtain ⟨i', row', same⟩ := kept i row
  refine ⟨i', row', fun result h => same ▸ said result ((found result).1 h), fun none => ?_⟩
  exact same.trans (silent fun result h => none result ((found result).2 h))

/-- A step keeps the mirror, if the remarks leave the column alone, and the note of a finding writes
it if and only if the job is of the type. -/
lemma Mirrors.step (finds : Finds type) (filed : Filed w.db) (step : StepFinds cfg text w a db)
    (remarks : ∀ note i, Remark text w a id note → column (note.apply i) = column i)
    (others : ∀ job result note i, NoteOf cfg text job result note → job.jobType ≠ type →
      column (note.apply i) = column i)
    (own : ∀ job result note i, NoteOf cfg text job result note → job.jobType = type →
      job.interactionId = id → fits result (column (note.apply i)))
    (one : ∀ result result' c, Found db type id result → Found db type id result' →
      fits result c → fits result' c)
    (h : Mirrors type column fits interaction₀ id w.db) :
    Mirrors type column fits interaction₀ id db := by
  cases step with
  | nothing same notes =>
    exact h.of_same (fun result => (same filed).2 type id result finds) fun i row =>
      notes.column remarks row
  | @finding job result note mem completion of written =>
    obtain ⟨i, row, said, silent⟩ := h
    by_cases mine : job.jobType = type ∧ job.interactionId = id
    · obtain ⟨rfl, rfl⟩ := mine
      have found := completion.found
      refine ⟨note.apply i, ?_, fun result' found' => ?_, fun none => absurd found (none result)⟩
      · rw [written, noted, Table.find?_modify, if_pos rfl, row]
        rfl
      · exact one result result' _ found found' (own job result note i of rfl rfl)
    · refine Mirrors.of_same ⟨i, row, said, silent⟩
        (fun result' => completion.other filed mine) fun i row => ?_
      rw [written, noted, Table.find?_modify]
      split
      case isFalse => exact ⟨i, row, rfl⟩
      case isTrue same =>
        rw [row]
        exact ⟨_, rfl, others job result note i of fun e => mine ⟨e, same.symm⟩⟩

end Column

lemma filed_step (sound : Sound w) (h : Filed w.db) : Filed (World.step cfg text w a).db :=
  (step_path cfg text sound a).invariant h fun _ _ _ filed m _ => filed.move m

/-- At the start nothing is to be filed. -/
lemma filed_of_initial (init : Initial w) : Filed w.db := by
  intro e mem
  rw [init.1] at mem
  cases mem

/-- Before the first job nothing was found. -/
lemma mirrors_of_initial {α : Type} {column : Interaction → α} {fits : Dict → α → Prop}
    (init : Initial w) (row : w.db.interactions.find? id = some interaction₀) :
    Mirrors type column fits interaction₀ id w.db := by
  refine ⟨interaction₀, row, fun result found => ?_, fun _ => rfl⟩
  obtain ⟨job, mem, _⟩ := found
  rw [init.1] at mem
  cases mem

/-! ### Recordings -/

/-- The name under which the recording of an interaction is stored. -/
def recordingKey (id : UUID) : String := "recordings/" ++ id.str ++ ".mp3"

/-- After every run the row of an interaction names the recording if a job has fetched one, and is as
it was at first otherwise. -/
theorem recording_shown {ok : World → Action → Prop} (run : Run (World.step cfg text) ok w₀ as w)
    (init : Initial w₀) (row : w₀.db.interactions.find? id = some interaction₀) :
    ∃ interaction, w.db.interactions.find? id = some interaction ∧
      ((∃ result, Found w.db .recordingFetch id result) →
        interaction.recordingS3Key = some (recordingKey id)) ∧
      ((∀ result, ¬ Found w.db .recordingFetch id result) →
        interaction.recordingS3Key = interaction₀.recordingS3Key) := by
  have mirrors : Mirrors .recordingFetch (·.recordingS3Key) (fun _ c => c = some (recordingKey id))
      interaction₀ id w.db := by
    refine (run.invariant (I := fun w => Sound w ∧ Filed w.db ∧ Mirrors .recordingFetch
      (·.recordingS3Key) (fun _ c => c = some (recordingKey id)) interaction₀ id w.db)
      ⟨sound_of_idle init.2, filed_of_initial init, mirrors_of_initial init row⟩
      fun w a h _ => ?_).2.2
    obtain ⟨sound, filed, mirrors⟩ := h
    refine ⟨sound_step sound, filed_step sound filed, mirrors.step (.inl rfl) filed
      (stepFinds_step sound) (fun note i remark => ?_) (fun job result note i of other => ?_)
      (fun job result note i of type own => ?_) fun _ _ _ _ _ said => said⟩
    · cases remark with
      | ended => rfl
      | erred => rfl
      | classified => unfold classifiedNote; split <;> rfl
    · cases of with
      | recording type => exact absurd type other
      | analysis => rfl
    · cases of with
      | recording => exact congrArg (fun id => some (recordingKey id)) own
      | analysis analysis => cases type.symm.trans analysis
  obtain ⟨interaction, found, said, silent⟩ := mirrors
  exact ⟨interaction, found, fun ⟨result, h⟩ => said result h, silent⟩

lemma row_plain : (World.ofInteraction .plain).db.interactions.find? 1 = some .plain := rfl

/-- A recording of the plain interaction is fetched. -/
def fetchedOnce : List Action := [
  .createIfAbsent (.plain 1 .recordingFetch
    [("call_sid", .str "call"), ("exotel_account_id", .str "account")]),
  .claimRecordings "worker" 1 (ClaimQuery.at 0),
  .report 0 (.recording (.response 200 (.ok (.dict [("recording_url", .str "url")])) "")) fun _ => 1
  ]

/-- A recording that is fetched once is shown. -/
theorem recording_shown_plain : ∃ interaction, (after fetchedOnce).db.interactions.find? 1 =
    some interaction ∧ interaction.recordingS3Key = some (recordingKey 1) := by
  have run : Run (World.step settings .plain) anyStep (.ofInteraction .plain) fetchedOnce
      (after fetchedOnce) := .of_foldl _
  obtain ⟨row, mem, type, own, succeeded⟩ : ∃ row ∈ (after fetchedOnce).db.queue.jobs.rows,
      row.jobType = .recordingFetch ∧ row.interactionId = 1 ∧
        .succeeded row.id ∈ (after fetchedOnce).db.queue.history := by decide +kernel
  obtain ⟨interaction, found, shown, _⟩ := recording_shown run ⟨rfl, rfl⟩ row_plain
  exact ⟨interaction, found, shown ⟨row.result, row, mem, type, own, succeeded, rfl⟩⟩

/-! ### Analyses -/

/-- The entries of the metadata that repeat an analysis. -/
def cached (analysed : AnalysisResult) : Dict := [
  ("call_stage", analysed.callStage),
  ("entities", analysed.entities),
  ("summary", analysed.summary),
  ("tokens_used", analysed.tokensUsed),
  ("llm_provider", .str analysed.provider),
  ("llm_model", .str analysed.model)]

/-- The keys of these entries. -/
def analysisKeys : List String :=
  ["call_stage", "entities", "summary", "tokens_used", "llm_provider", "llm_model"]

/-- The keys under which the orchestration of a short call writes as well. -/
def stageKeys : List String := ["call_stage", "tokens_used"]

/-- The interaction has an orchestration job for a short call. -/
def ShortRoot (db : Db) (id : UUID) : Prop :=
  ∃ root ∈ db.queue.jobs.rows, root.jobType = .orchestrateInteraction ∧
    root.interactionId = id ∧ Short root.payload

lemma ShortRoot.step (sound : Sound w) (h : ShortRoot w.db id) :
    ShortRoot (World.step cfg text w a).db id := by
  obtain ⟨root, mem, type, own, short⟩ := h
  obtain ⟨row, mem, same⟩ := Path.identity (step_path cfg text sound a) mem
  exact ⟨row, mem, (congrArg JobIdentity.jobType same).trans type,
    (congrArg JobIdentity.interactionId same).trans own,
    (congrArg JobIdentity.payload same).symm ▸ short⟩

/-- The note of an analysis writes the entries that are cached. -/
lemma get?_analysisResult {analysed : AnalysisResult} {now : Time} (among : key ∈ analysisKeys) :
    ((Note.analysisResult text analysed now).apply interaction).interactionMetadata.get? key =
      (cached analysed).get? key := by
  simp only [Note.analysisResult, Note.apply, Interaction.updateMetadata, Dict.get?_update]
  simp only [analysisKeys, List.mem_cons, List.not_mem_nil, or_false] at among
  rcases among with rfl | rfl | rfl | rfl | rfl | rfl <;> rfl

/-- An orchestration leaves the entries that are cached, unless it is one of a short call. -/
lemma get?_classifiedNote {c : Classification} (among : key ∈ analysisKeys)
    (apart : c.skipLlm → key ∉ stageKeys) :
    ((classifiedNote c).apply interaction).interactionMetadata.get? key =
      interaction.interactionMetadata.get? key := by
  simp only [analysisKeys, List.mem_cons, List.not_mem_nil, or_false] at among
  unfold classifiedNote
  split
  case isTrue short =>
    have apart := apart short
    simp only [stageKeys, List.mem_cons, List.not_mem_nil, or_false, not_or] at apart
    simp only [Note.shortCall, Note.skipped, Note.apply, Interaction.updateMetadata,
      Dict.get?_update]
    rcases among with rfl | rfl | rfl | rfl | rfl | rfl <;> first | rfl | simp at apart
  case isFalse =>
    simp only [Note.processing, Note.apply, Interaction.updateMetadata, Dict.get?_update]
    rcases among with rfl | rfl | rfl | rfl | rfl | rfl <;> rfl

/-- An interaction has one analysis job, by its key. -/
lemma found_unique {result result' : Dict}
    (keyed : ∀ row ∈ db.queue.jobs.rows, Keyed row.toJobIdentity)
    (h : Found db .llmAnalysis id result) (h' : Found db .llmAnalysis id result') :
    result = result' := by
  have key : ∀ row ∈ db.queue.jobs.rows, row.jobType = .llmAnalysis →
      row.idempotencyKey = jobKey row.interactionId Tail.analysis.text := by
    intro row mem type
    cases keyed row mem with
    | root _ root => cases type.symm.trans root
    | child tail child key =>
      cases tail with
      | analysis => exact key
      | recording => cases type.symm.trans child
      | signal => cases type.symm.trans child
      | lead => cases type.symm.trans child
  obtain ⟨row, mem, type, own, _, rfl⟩ := h
  obtain ⟨row', mem', type', own', _, rfl⟩ := h'
  have same : row.idempotencyKey = row'.idempotencyKey := by
    rw [key row mem type, key row' mem' type', own, own']
  rw [Table.eq_of_index mem mem' same]

/-- What a cached entry is to show of a response. -/
def Repeating (cfg : Settings) (key : String) (response : Dict) (entry : Option Json) : Prop :=
  ∃ analysed, parseResponse cfg response = .ok analysed ∧ entry = (cached analysed).get? key

/-- Every step keeps the entries of the findings. -/
lemma mirrors_analysis_step (among : key ∈ analysisKeys) (sound : Sound w) (filed : Filed w.db)
    (keyed : ∀ row ∈ (World.step cfg text w a).db.queue.jobs.rows, Keyed row.toJobIdentity)
    (long : key ∈ stageKeys → ¬ ShortRoot w.db id)
    (h : Mirrors .llmAnalysis (·.interactionMetadata.get? key) (Repeating cfg key) interaction₀ id
      w.db) :
    Mirrors .llmAnalysis (·.interactionMetadata.get? key) (Repeating cfg key) interaction₀ id
      (World.step cfg text w a).db := by
  refine h.step (.inr rfl) filed (stepFinds_step sound) (fun note i remark => ?_)
    (fun job result note i of other => ?_) (fun job result note i of type own => ?_)
    fun result result' c found found' said => found_unique keyed found found' ▸ said
  · cases remark with
    | ended => rfl
    | erred => rfl
    | classified mem type classified =>
      refine get?_classifiedNote among fun short stage => long stage ?_
      obtain ⟨turns, read, few, _⟩ := of_classification classified
      exact ⟨_, mem, type, rfl, turns, read, few.1 short⟩
  · cases of with
    | recording => rfl
    | analysis type => exact absurd type other
  · cases of with
    | recording recording => cases type.symm.trans recording
    | analysis _ parsed => exact ⟨_, parsed, get?_analysisResult among⟩

/-- After every run of the system the metadata of an interaction repeats what the analysis job was
completed with, and is as it was at first if none was: the stage and the tokens too, if no
orchestration was one of a short call. -/
theorem analysis_shown (run : Run (World.step cfg text) Served w₀ as w) (init : Initial w₀)
    (row : w₀.db.interactions.find? id = some interaction₀) :
    ∃ interaction, w.db.interactions.find? id = some interaction ∧
      ∀ key ∈ analysisKeys, (key ∈ stageKeys → ¬ ShortRoot w.db id) →
        (∀ response, Found w.db .llmAnalysis id response →
          ∃ analysed, parseResponse cfg response = .ok analysed ∧
            interaction.interactionMetadata.get? key = (cached analysed).get? key) ∧
        ((∀ response, ¬ Found w.db .llmAnalysis id response) →
          interaction.interactionMetadata.get? key =
            interaction₀.interactionMetadata.get? key) := by
  have mirrors : ∀ key ∈ analysisKeys, (key ∈ stageKeys → ¬ ShortRoot w.db id) →
      Mirrors .llmAnalysis (·.interactionMetadata.get? key) (Repeating cfg key) interaction₀ id
        w.db := by
    intro key among
    have filed := fun {w as} (run : Run (World.step cfg text) Served w₀ as w) =>
      (run.invariant (I := fun w => Sound w ∧ Filed w.db)
        ⟨sound_of_idle init.2, filed_of_initial init⟩
        fun _ _ h _ => ⟨sound_step h.1, filed_step h.1 h.2⟩)
    induction run with
    | nil => exact fun _ => mirrors_of_initial init row
    | snoc earlier served ih =>
      obtain ⟨sound, filed⟩ := filed earlier
      intro long
      have before := fun stage short => long stage (ShortRoot.step sound short)
      have keyed := keyed_of_run (.snoc earlier served) init
      exact mirrors_analysis_step among sound filed keyed before (ih before)
  obtain ⟨interaction, found, _⟩ := mirrors "summary" (by decide) fun stage =>
    absurd stage (by decide)
  refine ⟨interaction, found, fun key among long => ?_⟩
  obtain ⟨interaction', found', said, silent⟩ := mirrors key among long
  cases found.symm.trans found'
  exact ⟨said, silent⟩

instance (payload : Dict) : Decidable (Short payload) :=
  decidable_of_iff (∃ turns ∈ (transcript payload).toOption, turns.length < 4) (by
    unfold Short
    cases transcript payload <;> simp [Except.toOption])

instance (db : Db) (id : UUID) : Decidable (ShortRoot db id) := by unfold ShortRoot; infer_instance

/-- A call of four turns is analysed. -/
def analysedFromLegacy : List Action := legacyCall [] ++
  [.report 0 (.analysis (.returns [("call_stage", .str "demo_booked"), ("summary", .str "They agreed.")])
    Birth.plain) fun _ => 0]

theorem analysis_shown_plain : ∃ response analysed interaction,
    Found (after analysedFromLegacy).db .llmAnalysis 1 response ∧
      parseResponse settings response = .ok analysed ∧
      (after analysedFromLegacy).db.interactions.find? 1 = some interaction ∧
      ((cached analysed).getD "call_stage" .null).eq (.str "demo_booked") ∧
      ∀ key ∈ analysisKeys,
        interaction.interactionMetadata.get? key = (cached analysed).get? key := by
  have run : Run (World.step settings .plain) Served (.ofInteraction .plain) analysedFromLegacy
      (after analysedFromLegacy) := by
    refine served_of_forall fun a mem new e => ?_
    simp [analysedFromLegacy, legacyCall, e] at mem
  have long : ¬ ShortRoot (after analysedFromLegacy).db 1 := by decide +kernel
  obtain ⟨row, mem, type, own, succeeded, stage⟩ :
      ∃ row ∈ (after analysedFromLegacy).db.queue.jobs.rows,
        row.jobType = .llmAnalysis ∧ row.interactionId = 1 ∧
          .succeeded row.id ∈ (after analysedFromLegacy).db.queue.history ∧
          ∀ analysed ∈ (parseResponse settings row.result).toOption,
            ((cached analysed).getD "call_stage" .null).eq (.str "demo_booked") := by decide +kernel
  have found : Found (after analysedFromLegacy).db .llmAnalysis 1 row.result :=
    ⟨row, mem, type, own, succeeded, rfl⟩
  obtain ⟨interaction, shown, entries⟩ := analysis_shown run ⟨rfl, rfl⟩ row_plain
  obtain ⟨analysed, parsed, _⟩ := (entries "summary" (by decide) fun _ => long).1 row.result found
  refine ⟨row.result, analysed, interaction, found, parsed, shown, stage analysed ?_,
    fun key among => ?_⟩
  · rw [parsed]
    rfl
  · obtain ⟨analysed', parsed', entry⟩ := (entries key among fun _ => long).1 row.result found
    cases parsed.symm.trans parsed'
    exact entry

/-! ### Short calls -/

/-- The metadata tells that the call was too short. -/
def ShowsSkipped (interaction : Interaction) : Prop :=
  ∀ e ∈ Note.skipped, interaction.interactionMetadata.get? e.1 = some e.2

/-- If an orchestration of the interaction was ever completed, the metadata tells that the call was
too short. -/
def Skipped (id : UUID) (db : Db) : Prop :=
  Filed db ∧ ∃ interaction, db.interactions.find? id = some interaction ∧
    ∀ result, Found db .orchestrateInteraction id result → ShowsSkipped interaction

/-- The note of a short call shows that it was skipped. -/
lemma shows_shortCall : ShowsSkipped (Note.shortCall.apply interaction) := by
  intro e mem
  simp only [Note.shortCall, Note.apply, Interaction.updateMetadata, Dict.get?_update]
  simp only [Note.skipped, List.mem_cons, List.not_mem_nil, or_false] at mem
  rcases mem with rfl | rfl | rfl | rfl <;> rfl

/-- The orchestration of a short call, and every write outside the metadata, leave it told. -/
lemma ShowsSkipped.remark {note : Note} (h : ShowsSkipped interaction)
    (quiet : note = .shortCall ∨ ∀ entries, note ≠ .entered entries) :
    ShowsSkipped (note.apply interaction) := by
  rcases quiet with rfl | quiet
  · exact shows_shortCall
  · cases note with
    | entered entries => exact absurd rfl (quiet entries)
    | _ => exact h

/-- What is skipped stays so without another orchestration. -/
lemma Skipped.keep {ok : Db → Label → Prop} {ok' : UUID → Note → Prop}
    (h : Skipped id db) (p : Path (Move cfg) ok db db')
    (other : ∀ db l, ok db l → ¬ l.Completes .orchestrateInteraction id) (notes : Notes ok' db db')
    (quiet : ∀ note, ok' id note → note = .shortCall ∨ ∀ entries, note ≠ .entered entries) :
    Skipped id db' := by
  obtain ⟨filed, interaction, row, shown⟩ := h
  obtain ⟨filed', same⟩ := p.invariant (I := fun s => Filed s ∧ ∀ result,
      Found s .orchestrateInteraction id result ↔ Found db .orchestrateInteraction id result)
    ⟨filed, fun _ => .rfl⟩ fun s l s' inv m permitted => ⟨inv.1.move m, fun result =>
      (found_of_move inv.1 m (other s l permitted)).trans (inv.2 result)⟩
  obtain ⟨interaction', row', kept⟩ := notes.keeps
    (p := fun i => ∀ result, Found db .orchestrateInteraction id result → ShowsSkipped i)
    (fun note i permitted told result found => (told result found).remark (quiet note permitted))
    row shown
  exact ⟨filed', interaction', row', fun result found => kept result ((same result).1 found)⟩

/-- After the children of a short call were made its metadata tells so. -/
lemma shows_createChildJobs {run : JobRun} {job : InteractionJob} {u : Unit}
    (row : db.interactions.find? job.interactionId = some interaction)
    (short : Short job.payload)
    (h : WorkflowOrchestrator.createChildJobs cfg text run job db = .ok u db') :
    ∃ interaction', db'.interactions.find? job.interactionId = some interaction' ∧
      ShowsSkipped interaction' := by
  obtain ⟨⟨transcriptText, c⟩, s₁, h₁, rest⟩ := Program.bind_ok.1 h
  obtain ⟨classified, rfl⟩ := Program.ofExcept_run_ok.1 h₁
  have skip : c.skipLlm := by
    obtain ⟨turns, read, few, _⟩ := of_classification classified
    obtain ⟨turns', read', short⟩ := short
    cases read.symm.trans read'
    exact few.2 short
  obtain ⟨_, s₂, h₂, rest⟩ := Program.bind_ok.1 rest
  obtain ⟨_, s₃, h₃, rest⟩ := Program.bind_ok.1 rest
  simp only [skip, if_true] at rest
  obtain ⟨_, s₄, h₄, rest⟩ := Program.bind_ok.1 rest
  rw [WorkflowOrchestrator.queueShortCall, Program.bind_of_ok Program.modify_run] at h₄
  -- only the mark is written into interactions
  have queues : Within SameInteractions (WorkflowOrchestrator.queueRecording cfg run
      job.toJobIdentity c) := sameInteractions_of_notes notes_queueRecording
  have interrupts : ∀ fault, Within SameInteractions (Tx.interrupt fault) := fun _ =>
    sameInteractions_of_notes notes_interrupt
  have results : Within SameInteractions (do
      Tx.interrupt (run.fault 2)
      Tx.queueResultJobs cfg text run.births job.toJobIdentity job.payload
        (shortCallResult c.callStage) .high "short_call" (run.fault 4)) :=
    sameInteractions_of_notes (.bind notes_interrupt fun _ => notes_queueResultJobs)
  have before : s₃.interactions = s₁.interactions :=
    ((interrupts _).of_ok h₃).trans (queues.of_ok h₂)
  have after : db'.interactions = noted s₃.interactions job.interactionId .shortCall :=
    ((interrupts _).of_ok rest).trans (results.of_ok h₄)
  refine ⟨Note.shortCall.apply interaction, ?_, shows_shortCall⟩
  rw [after, noted, Table.find?_modify, if_pos rfl, before, row]
  rfl

/-- An orchestration that raised has made children at most. -/
lemma path_of_orchestrate_error {run : JobRun} {job : InteractionJob} {e : PyError}
    (h : WorkflowOrchestrator.orchestrate cfg text run job db = .error e db') :
    Path (Move cfg) (childMoves cfg job.toJobIdentity) db db' := by
  have started : Path (Move cfg) (childMoves cfg job.toJobIdentity) db
      (db.emit job "orchestrator" "running" "workflow_orchestration_started") :=
    (Aside.emit (by decide)).path fun _ => trivial
  rcases Program.bind_error.1 h with h | ⟨_, s₁, h₁, h⟩
  · cases h
  cases h₁
  rcases Program.bind_error.1 h with h | ⟨_, s₂, _, h⟩
  · exact started.trans (within_createChildJobs.of_error h)
  -- the completion itself cannot raise
  rcases Program.bind_error.1 h with h | ⟨_, s₃, _, h⟩
  · cases h
  · cases h

/-- The orchestration of a job, which is one of a short call if it is one of the interaction. -/
lemma skipped_processJob {run : JobRun} {job : InteractionJob}
    (type : job.jobType = .orchestrateInteraction) (running : job.status = .running)
    (mem : job ∈ db.queue.jobs.rows) (short : job.interactionId = id → Short job.payload)
    (h : Skipped id db) :
    Skipped id (finalState (WorkflowOrchestrator.processJob cfg text run job db)) := by
  have path : Path (Move cfg) (processMoves cfg text job.toJobIdentity) db
      (finalState (WorkflowOrchestrator.processJob cfg text run job db)) :=
    path_processJob type running mem
  have notes : Notes
      (fun id' note => id' = id → note = .shortCall ∨ ∀ entries, note ≠ .entered entries)
      db (finalState (WorkflowOrchestrator.processJob cfg text run job db)) := by
    refine notes_processJob (fun _ _ _ => .inr nofun) (fun transcriptText c classified own => ?_) db
    obtain ⟨turns, read, few, _⟩ := of_classification classified
    obtain ⟨turns', read', short⟩ := short own
    cases read.symm.trans read'
    exact .inl (if_pos (few.2 short))
  by_cases own : job.interactionId = id
  case neg =>
    refine h.keep path (fun _ l moves completes => own ?_) notes fun note quiet => quiet rfl
    cases l with
    | succeed => exact (congrArg JobIdentity.interactionId moves.1).symm.trans completes.2
    | _ => exact completes.elim
  case pos =>
    unfold WorkflowOrchestrator.processJob at notes path ⊢
    rw [Program.tryCatch_run] at notes path ⊢
    cases tried : WorkflowOrchestrator.orchestrate cfg text run job db with
    | ok a s =>
      obtain ⟨filed, interaction, row, _⟩ := h
      obtain ⟨_, s₁, h₁, rest⟩ := Program.bind_ok.1 tried
      cases h₁
      obtain ⟨_, s₂, h₂, rest⟩ := Program.bind_ok.1 rest
      obtain ⟨_, s₃, h₃, rest⟩ := Program.bind_ok.1 rest
      cases h₃
      cases rest
      obtain ⟨interaction', row', shown⟩ := shows_createChildJobs (own ▸ row) (short own) h₂
      rw [tried] at path
      exact ⟨path.invariant filed fun _ _ _ filed m _ => filed.move m, interaction', own ▸ row',
        fun _ _ => shown⟩
    | error e s =>
      rw [tried] at notes
      have made := path_of_orchestrate_error tried
      have open' : Path (Move cfg) (fun _ l => ¬ l.Completes .orchestrateInteraction id) db s :=
        made.mono fun _ l moves => by
          cases l with
          | succeed => exact moves.elim
          | _ => exact fun completes => completes
      simp only at notes ⊢
      split at notes
      · rw [if_pos ‹_›]
        exact h.keep open' (fun _ _ h => h) notes fun note quiet => quiet rfl
      · rw [if_neg ‹_›]
        refine h.keep (open'.trans (.single (.fail (mem_of_childMoves made mem)) ?_))
          (fun _ _ h => h) notes fun note quiet => quiet rfl
        exact fun completes => completes

/-- The moves of an orchestration are about its own job. -/
lemma mem_of_processMoves {root : JobIdentity} {row : InteractionJob}
    (p : Path (Move cfg) (processMoves cfg text root) db db') (mem : row ∈ db.queue.jobs.rows)
    (other : row.id ≠ root.id) : row ∈ db'.queue.jobs.rows := by
  refine Path.mem_of_ne p mem fun _ l job moves about own => other (own.trans ?_)
  cases l with
  | succeed => cases about; exact congrArg JobIdentity.id moves.1
  | fail => cases about; exact congrArg JobIdentity.id moves.1
  | aside => cases about
  | create => cases about
  | _ => cases moves

lemma skipped_processJobs {run : UUID → JobRun} {jobs : List InteractionJob}
    (nodup : (jobs.map (·.id)).Nodup)
    (claimed : ∀ job ∈ jobs, job.jobType = .orchestrateInteraction ∧ job.status = .running ∧
      job ∈ db.queue.jobs.rows)
    (short : ∀ job ∈ jobs, job.interactionId = id → Short job.payload) (h : Skipped id db) :
    Skipped id (finalState (WorkflowOrchestrator.processJobs cfg text run jobs db)) := by
  induction jobs generalizing db with
  | nil => exact h
  | cons job jobs ih =>
    simp only [List.map_cons, List.nodup_cons, List.mem_map, not_exists, not_and] at nodup
    obtain ⟨type, running, mem⟩ := claimed job List.mem_cons_self
    have p : Path (Move cfg) (processMoves cfg text job.toJobIdentity) db
        (finalState (WorkflowOrchestrator.processJob cfg text (run job.id) job db)) :=
      path_processJob type running mem
    have first : Skipped id (finalState
        (WorkflowOrchestrator.processJob cfg text (run job.id) job db)) :=
      skipped_processJob type running mem (short job List.mem_cons_self) h
    unfold WorkflowOrchestrator.processJobs
    rw [Program.bind_run]
    cases processed : WorkflowOrchestrator.processJob cfg text (run job.id) job db with
    | error e s =>
      rw [processed] at first
      exact first
    | ok a s =>
      rw [processed] at p first
      refine ih nodup.2 (fun row mem => ?_) (fun row mem => short row (List.mem_cons_of_mem _ mem))
        first
      obtain ⟨type, running, rowMem⟩ := claimed row (List.mem_cons_of_mem _ mem)
      exact ⟨type, running, mem_of_processMoves p rowMem (nodup.1 row mem)⟩

/-- All orchestration jobs of the interaction are for short calls. -/
def AllShort (db : Db) (id : UUID) : Prop :=
  ∀ root ∈ db.queue.jobs.rows, root.jobType = .orchestrateInteraction → root.interactionId = id →
    Short root.payload

/-- Where all are short now, all were before. -/
lemma AllShort.of_step (sound : Sound w) (h : AllShort (World.step cfg text w a).db id) :
    AllShort w.db id := by
  intro root mem type own
  obtain ⟨row, rowMem, same⟩ := Path.identity (step_path cfg text sound a) mem
  have short := h row rowMem ((congrArg JobIdentity.jobType same).trans type)
    ((congrArg JobIdentity.interactionId same).trans own)
  rwa [congrArg JobIdentity.payload same] at short

/-- No analysis is queued for a short call. -/
lemma analysis_not_queued (short : AllShort db id) {job : InteractionJob}
    (queued : Queues cfg text (RootIn db) job.toJobIdentity) (own : job.interactionId = id) :
    job.jobType ≠ .llmAnalysis := by
  intro type
  obtain ⟨root, ⟨rootType, row, mem, same⟩, transcriptText, c, of⟩ := queued type
  subst same
  obtain ⟨turns, read, few⟩ := short row mem rootType (of.interactionId.symm.trans own)
  obtain ⟨turns', read', skip, _⟩ := of_classification of.classified
  cases read.symm.trans read'
  exact of.long (skip.2 few)

/-- A round of the orchestrator skips short calls. -/
lemma skipped_runOnce {workerId : String} {limit : ℕ} {recovery : RecoveryClock}
    {query : ClaimQuery} {run : UUID → JobRun} {u : Unit} (short : AllShort db id)
    (h : Skipped id db)
    (returned : WorkflowOrchestrator.runOnce cfg text workerId limit recovery query run db =
      .ok u db') : Skipped id db' := by
  rw [WorkflowOrchestrator.runOnce, Program.bind_of_ok recoverStaleRunningJobs_run,
    Program.bind_of_ok claimReadyJobs_run] at returned
  let types : List JobType := [.orchestrateInteraction]
  let fresh := recovered cfg workerId recovery db
  have recovers : Path (Move cfg) (fun _ l => ¬ l.Completes .orchestrateInteraction id) db fresh :=
    path_recover fun _ _ _ _ completes => completes
  have claims : Path (Move cfg) (fun _ l => ¬ l.Completes .orchestrateInteraction id) fresh
      (claimed workerId types limit query fresh) := path_claim fun _ _ _ completes => completes
  have notes : Notes (fun _ _ => False) db (claimed workerId types limit query fresh) := .of_same rfl
  have start := h.keep (recovers.trans claims) (fun _ _ h => h) notes fun _ h => h.elim
  have done : Skipped id (finalState (WorkflowOrchestrator.processJobs cfg text run
      (claimedJobs workerId types limit query fresh)
      (claimed workerId types limit query fresh))) := by
    refine skipped_processJobs nodup_claimedJobs
      (fun job mem => ⟨jobType_of_claimedJobs mem, running_of_claimedJobs job mem⟩)
      (fun job mem own => ?_) start
    obtain ⟨row, rowMem, same, _⟩ := claimable mem
    rw [← congrArg JobIdentity.payload same]
    exact short row rowMem ((congrArg JobIdentity.jobType same).trans (jobType_of_claimedJobs mem))
      ((congrArg JobIdentity.interactionId same).trans own)
  rwa [returned] at done

/-- Orchestration jobs are completed by the orchestrator only. -/
lemma orchestrates_of_completes {l : Label} (h : Allowed cfg text w a db l)
    (completes : l.Completes .orchestrateInteraction id) :
    ∃ workerId limit recovery query run, a = .orchestrate workerId limit recovery query run := by
  cases h with
  | orchestrated => exact ⟨_, _, _, _, _, rfl⟩
  | @report _ _ _ _ _ _ _ l _ _ _ of moves =>
    cases l with
    | succeed =>
      obtain ⟨rfl, _⟩ := moves.1
      exact absurd completes.1 of.jobType_ne
    | _ => exact completes.elim
  | _ => exact completes.elim

lemma skipped_step (sound : Sound w) (short : AllShort w.db id)
    (queued : ∀ row ∈ w.db.queue.jobs.rows, Queues cfg text (RootIn w.db) row.toJobIdentity)
    (h : Skipped id w.db) : Skipped id (World.step cfg text w a).db := by
  by_cases orchestrates : ∃ workerId limit recovery query run,
      a = .orchestrate workerId limit recovery query run
  · obtain ⟨workerId, limit, recovery, query, run, rfl⟩ := orchestrates
    simp only [World.step, World.transact, commit]
    cases ran : WorkflowOrchestrator.runOnce cfg text workerId limit recovery query run w.db with
    | ok u db => exact skipped_runOnce short h ran
    | error => exact h
  · have notes : Notes
        (fun id' note => id' = id → note = .shortCall ∨ ∀ entries, note ≠ .entered entries)
        w.db (World.step cfg text w a).db := by
      cases @stepFinds_step cfg text w a sound with
      | nothing _ notes =>
        refine Path.mono notes fun _ l remark own => ?_
        obtain ⟨id', note⟩ := l
        cases remark with
        | ended => exact .inr fun _ e => by cases e
        | erred => exact .inr fun _ e => by cases e
        | classified => exact absurd ⟨_, _, _, _, _, rfl⟩ orchestrates
      | finding mem _ of written =>
        refine .single (fun own => ?_) written
        cases of with
        | recording => exact .inr fun _ e => by cases e
        | analysis type => exact absurd type (analysis_not_queued short (queued _ mem) own)
    exact h.keep (step_path cfg text sound a) (fun _ _ allowed completes =>
      orchestrates (orchestrates_of_completes allowed completes)) notes fun note quiet => quiet rfl

/-- After every run of the system, if all orchestration jobs of an interaction are for short calls
and one was ever completed, the metadata tells that the call was too short. -/
theorem short_call_shown (run : Run (World.step cfg text) Served w₀ as w) (init : Initial w₀)
    (row : w₀.db.interactions.find? id = some interaction₀) (short : AllShort w.db id)
    {result : Dict} (completed : Found w.db .orchestrateInteraction id result) :
    ∃ interaction, w.db.interactions.find? id = some interaction ∧
      ∀ e ∈ Note.skipped, interaction.interactionMetadata.get? e.1 = some e.2 := by
  have skipped : Skipped id w.db := by
    clear completed
    induction run with
    | nil =>
      refine ⟨filed_of_initial init, interaction₀, row, fun result found => ?_⟩
      obtain ⟨job, mem, _⟩ := found
      rw [init.1] at mem
      cases mem
    | snoc earlier served ih =>
      have sound := sound_of_run earlier (sound_of_idle init.2)
      have before := short.of_step sound
      exact skipped_step sound before (queued_of_run earlier init) (ih before)
  obtain ⟨_, interaction, found, shown⟩ := skipped
  exact ⟨interaction, found, shown result completed⟩

instance (db : Db) (id : UUID) : Decidable (AllShort db id) := by unfold AllShort; infer_instance

/-- A call without a transcript is orchestrated. -/
def skippedOnce : List Action := [
  .legacyTask (legacyPayload (UUID.str 1)) ⟨11, 0, 0⟩,
  .orchestrate "orchestrator" 1 (.at 0) (.at 0) fun _ => ⟨Birth.plain, fun _ => none, fun _ => 0⟩]

/-- A short call that is skipped once shows it. -/
theorem short_call_shown_plain : ∃ interaction, (after skippedOnce).db.interactions.find? 1 =
    some interaction ∧ ∀ e ∈ Note.skipped, interaction.interactionMetadata.get? e.1 = some e.2 := by
  have run : Run (World.step settings .plain) Served (.ofInteraction .plain) skippedOnce
      (after skippedOnce) := by
    refine served_of_forall fun a mem new e => ?_
    simp [skippedOnce, e] at mem
  obtain ⟨root, mem, type, own, succeeded⟩ : ∃ root ∈ (after skippedOnce).db.queue.jobs.rows,
      root.jobType = .orchestrateInteraction ∧ root.interactionId = 1 ∧
        .succeeded root.id ∈ (after skippedOnce).db.queue.history := by decide +kernel
  have short : AllShort (after skippedOnce).db 1 := by decide +kernel
  exact short_call_shown run ⟨rfl, rfl⟩ row_plain short ⟨root, mem, type, own, succeeded, rfl⟩

end PostCall.Properties
