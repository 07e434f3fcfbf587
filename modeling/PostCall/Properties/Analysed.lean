import PostCall.Machine.Analyses
import PostCall.Properties.Uniqueness

/-!
# What is analysed

The orchestrator takes the text of a call from `transcript_text` of the payload, and builds it from the
turns where nothing is given there. The LLM worker takes it from the same field of the copied payload
and puts an empty text where nothing is given. So the text that is analysed is the one that was
classified, and that the tokens were estimated for, exactly if the payload gives a text. A payload of
the webhook does; one of the legacy task need not.
-/

namespace PostCall.Properties
open PostCall.Library PostCall.Python PostCall.Model PostCall.Machine

variable {cfg : Settings} {text : Text} {fromisoformat : String → Except PyError Time} {utcnow : Time}
  {payload : Dict} {turns : List Json} {transcriptText : Json} {c : Classification}
  {snapshot : ClaimedLLMJob} {ctx : PostCallContext} {w₀ w : World} {as : List Action}

/-- Something is given under `transcript_text`. -/
def GivesSome (payload : Dict) : Prop := (payload.getD "transcript_text" .null).truthy

/-- A text is given under `transcript_text`. -/
def GivesText (payload : Dict) : Prop :=
  ∃ s, s ≠ "" ∧ payload.get? "transcript_text" = some (.str s)

/-- A payload that gives a text gives something. -/
lemma GivesText.some (h : GivesText payload) : GivesSome payload := by
  obtain ⟨s, ne, found⟩ := h
  simp [GivesSome, Dict.getD, found, Json.truthy, ne]

/-! ### The two derivations of the text -/

/-- A transcript that is not empty has a text that is not empty. -/
lemma transcriptText_ne_empty {s : String} (h : Model.transcriptText text turns = .ok s)
    (ne : turns ≠ []) : s ≠ "" := by
  obtain ⟨lines, joined, e⟩ := Program.except_ok.1 h
  cases turns with
  | nil => exact absurd rfl ne
  | cons turn turns =>
    rw [List.mapM_cons] at joined
    obtain ⟨line, written, rest⟩ := Program.except_ok.1 joined
    obtain ⟨lines', _, rest⟩ := Program.except_ok.1 rest
    obtain ⟨turn', _, written⟩ := Program.except_ok.1 written
    cases rest
    cases written
    cases e
    simp [String.append_assoc]

/-- The text of the context is the one of the payload. -/
lemma text_of_context
    (h : LLMWorkerService.contextFromSnapshot text fromisoformat utcnow snapshot = .ok ctx) :
    ctx.transcriptText = text.str (orElse (snapshot.payload.get? "transcript_text") (.str "")) := by
  unfold LLMWorkerService.contextFromSnapshot at h
  simp only at h
  split at h
  case h_1 =>
    obtain ⟨endedAt, _, built⟩ := Program.except_ok.1 h
    exact congrArg PostCallContext.transcriptText (Except.ok.inj built).symm
  case h_2 => exact congrArg PostCallContext.transcriptText (Except.ok.inj h).symm

lemma orElse_orElse (x : Option Json) (default : Json) :
    orElse (some (orElse x default)) default = orElse x default := by
  cases x with
  | none => cases h : default.truthy <;> simp [orElse, h]
  | some j => cases h : j.truthy <;> simp [orElse, h]

/-- `x or default`, for what is read from an object. -/
lemma orElse_get? {d : Dict} {key : String} {default : Json} :
    orElse (d.get? key) default =
      if (d.getD key .null).truthy then d.getD key .null else default := by
  unfold orElse Dict.getD
  cases d.get? key <;> rfl

/-- What is given is a text if and only if it is its own text. -/
lemma givesText_iff (given : GivesSome payload) :
    GivesText payload ↔ payload.getD "transcript_text" .null =
      .str (text.str (payload.getD "transcript_text" .null)) := by
  unfold Dict.getD
  constructor
  · rintro ⟨s, _, found⟩
    rw [found]
    rfl
  · intro own
    unfold GivesSome Dict.getD at given
    cases found : payload.get? "transcript_text" with
    | none =>
      rw [found] at given
      cases given
    | some j =>
      rw [found, Option.getD_some] at own given
      rw [own] at given
      exact ⟨text.str j, by simpa [Json.truthy] using given, found.trans (congrArg some own)⟩

/-- What the worker analyses is the very value that was classified if and only if a text is given, and
it is the text of that value if and only if something is given. -/
theorem analysed_iff
    (classified : WorkflowOrchestrator.classification text payload = .ok (transcriptText, c))
    (long : ¬ c.skipLlm) (copied : snapshot.payload = llmPayload payload c)
    (built : LLMWorkerService.contextFromSnapshot text fromisoformat utcnow snapshot = .ok ctx) :
    (transcriptText = .str ctx.transcriptText ↔ GivesText payload) ∧
      (text.str transcriptText = ctx.transcriptText ↔ GivesSome payload) := by
  obtain ⟨turns, _, chosen, decided⟩ := classification_ok classified
  have copy : snapshot.payload.get? "transcript_text" = payload.get? "transcript_text" := by
    rw [copied, llmPayload, Dict.get?_set, if_neg (by decide)]
  have analysed := text_of_context built
  rw [copy, orElse_get?] at analysed
  unfold WorkflowOrchestrator.transcriptTextOf at chosen
  by_cases given : GivesSome payload
  · have truthy : (payload.getD "transcript_text" .null).truthy = true := given
    simp only [truthy, if_true] at chosen analysed
    cases chosen
    rw [analysed]
    exact ⟨(givesText_iff given).symm, iff_of_true rfl given⟩
  · -- the worker puts an empty text where the orchestrator has built one from the turns
    have falsy : (payload.getD "transcript_text" .null).truthy = false := by
      simpa [GivesSome] using given
    simp only [falsy, Bool.false_eq_true, if_false] at chosen analysed
    obtain ⟨joined, e, rfl⟩ : ∃ s, Model.transcriptText text turns = .ok s ∧
        Json.str s = transcriptText := by
      cases e : Model.transcriptText text turns with
      | error => simp [e] at chosen
      | ok s => exact ⟨s, rfl, Except.ok.inj (e ▸ chosen)⟩
    have ne : joined ≠ "" := transcriptText_ne_empty e fun none =>
      long ((skipLlm_iff decided).2 (by simp [none]))
    rw [analysed]
    exact ⟨iff_of_false (fun same => ne (Json.str.inj same)) fun h => given h.some,
      iff_of_false ne given⟩

/-- The text of an interaction is built from the turns that the payload copies. -/
lemma transcriptText_of_turns {interaction : Interaction}
    (copied : payload.get? "conversation_data" =
      some (orElse (some interaction.conversationData) (.dict [])))
    (read : transcript payload = .ok turns) (ne : turns ≠ []) :
    interaction.transcriptText text = Model.transcriptText text turns := by
  obtain ⟨conversation, e, h⟩ := Program.except_ok.1 read
  rw [copied, orElse_orElse] at e
  have found : conversation.getD "transcript" (.list []) = .list turns := by
    unfold orElse at h
    unfold Dict.getD
    cases given : conversation.get? "transcript" with
    | none =>
      rw [given] at h
      exact absurd (Except.ok.inj h).symm ne
    | some j =>
      rw [given] at h
      cases truthy : j.truthy with
      | false =>
        simp only [truthy] at h
        exact absurd (Except.ok.inj h).symm ne
      | true =>
        simp only [truthy, if_true] at h
        cases j with
        | list items => exact congrArg Json.list (Except.ok.inj h)
        | _ => exact absurd (Except.ok.inj h).symm ne
  rw [Interaction.transcriptText, show interaction.conversation = .ok conversation from e]
  simp only [bind, Except.bind, found]

/-- A payload of the webhook with a transcript gives its text. -/
theorem givesText_of_webhook {interaction : Interaction} {request : EndRequest}
    (h : endedPayload text interaction request = .ok payload)
    (read : transcript payload = .ok turns) (ne : turns ≠ []) : GivesText payload := by
  obtain ⟨s, written, h⟩ := Program.except_ok.1 h
  obtain ⟨account, _, h⟩ := Program.except_ok.1 h
  cases h
  rw [transcriptText_of_turns rfl read ne] at written
  exact ⟨s, transcriptText_ne_empty written ne, rfl⟩

/-! ### The runs of the system -/

/-- An analysis that is executed was queued for an orchestration job, with a copy of its payload. -/
lemma queued_of_inflight (run : Run (World.step cfg text) Served w₀ as w) (init : Initial w₀)
    {f : InFlight} (hf : f ∈ w.inflight) (work : f.work = .analysis snapshot) :
    ∃ root, RootIn w.db root ∧ ∃ job ∈ w.db.queue.jobs.rows, job.id = snapshot.id ∧
      ∃ transcriptText c, AnalysisOf cfg text root job.toJobIdentity transcriptText c ∧
        snapshot.payload = llmPayload root.payload c := by
  obtain ⟨job, mem, of⟩ := sound_of_run run (sound_of_idle init.2) f hf
  rw [work] at of
  cases of with
  | analysis same type =>
    obtain ⟨root, isRoot, transcriptText, c, queued⟩ := queued_of_run run init job mem type
    exact ⟨root, isRoot, job, mem, (congrArg JobIdentity.id same).symm, transcriptText, c, queued,
      (congrArg JobIdentity.payload same).trans queued.payload⟩

/-- In every run of the system's own actions, an analysis that is executed was queued for an
orchestration job, with the estimate for the text that was classified there. That text is the one that
is analysed if and only if the payload of the job gives a text; the two are written the same if and
only if something is given. -/
theorem analysed_iff_given (run : Run (World.step cfg text) Served w₀ as w) (init : Initial w₀)
    {f : InFlight} (hf : f ∈ w.inflight) (work : f.work = .analysis snapshot) :
    ∃ root, RootIn w.db root ∧ ∃ job ∈ w.db.queue.jobs.rows, job.id = snapshot.id ∧
      ∃ transcriptText c, AnalysisOf cfg text root job.toJobIdentity transcriptText c ∧
        ∀ ctx, LLMWorkerService.contextFromSnapshot text fromisoformat utcnow snapshot = .ok ctx →
          (transcriptText = .str ctx.transcriptText ↔ GivesText root.payload) ∧
            (text.str transcriptText = ctx.transcriptText ↔ GivesSome root.payload) := by
  obtain ⟨root, isRoot, job, mem, same, transcriptText, c, queued, copied⟩ :=
    queued_of_inflight run init hf work
  exact ⟨root, isRoot, job, mem, same, transcriptText, c, queued, fun ctx built =>
    analysed_iff queued.classified queued.long copied built⟩

instance : Decidable (GivesSome payload) := inferInstanceAs (Decidable (_ = true))

/-- Whether a value is a text that is not empty. -/
def isText : Json → Bool
  | .str s => s ≠ ""
  | _ => false

/-- The payload gives a text exactly where its entry is one. -/
lemma isText_iff : (payload.get? "transcript_text").any isText ↔ GivesText payload := by
  unfold GivesText
  cases payload.get? "transcript_text" with
  | none => simp
  | some j => cases j <;> simp [isText]

instance : Decidable (GivesText payload) := decidable_of_iff _ isText_iff

/-- What the workers hand to the provider. -/
def contexts (w : World) : List PostCallContext :=
  w.inflight.filterMap fun f =>
    match f.work with
    | .analysis snapshot =>
      (LLMWorkerService.contextFromSnapshot .plain (fun _ => .ok 0) 0 snapshot).toOption
    | _ => none

/-- A context is read from the snapshot of an execution in flight. -/
lemma of_mem_contexts (h : ctx ∈ contexts w) : ∃ f ∈ w.inflight, ∃ snapshot,
    f.work = .analysis snapshot ∧
      LLMWorkerService.contextFromSnapshot .plain (fun _ => .ok 0) 0 snapshot = .ok ctx := by
  obtain ⟨f, hf, e⟩ := List.mem_filterMap.1 h
  cases work : f.work with
  | analysis snapshot =>
    simp only [work] at e
    cases built : LLMWorkerService.contextFromSnapshot .plain (fun _ => .ok 0) 0 snapshot with
    | error => simp [built, Except.toOption] at e
    | ok ctx' =>
      simp only [built, Except.toOption, Option.some.injEq] at e
      exact ⟨f, hf, snapshot, work, built.trans (congrArg Except.ok e)⟩
  | _ => simp [work] at e

/-- A legacy task for a call of four turns, and the claim of its analysis. -/
def legacyCall (given : Dict) : List Action := [
  .legacyTask (legacyPayload (UUID.str 1) ++ [("conversation_data", .dict [("transcript", turns)])] ++
    given) ⟨11, 0, 0⟩,
  .orchestrate "orchestrator" 1 (.at 0) (.at 0) fun _ => ⟨Birth.plain, fun _ => none, fun _ => 0⟩,
  .claimAnalyses "worker" 1 (.at 0) (.at 0) fun _ _ => 0]
where
  turns : Json := .list (List.replicate 4 (.dict [("role", .str "agent"), ("content", .str "Hello.")]))

/-- Actions of the system's own are a run. -/
lemma served_of_forall {as : List Action} (served : ∀ a ∈ as, ∀ new : NewJob, a ≠ .createIfAbsent new) :
    Run (World.step settings .plain) Served (.ofInteraction .plain) as (after as) := by
  have run : Run (World.step settings .plain) anyStep (.ofInteraction .plain) as (after as) :=
    .of_foldl _
  exact (run.of_forall_mem served).mono fun _ _ h => h.2

/-- The run of a legacy call is served. -/
lemma served_legacyCall {given : Dict} :
    Run (World.step settings .plain) Served (.ofInteraction .plain) (legacyCall given)
      (after (legacyCall given)) := by
  refine served_of_forall fun a mem new e => ?_
  simp [legacyCall, e] at mem

/-- A call whose payload gives the text. -/
def withText : List Action := legacyCall [("transcript_text", .str "agent: Hello.")]

theorem analysed_iff_given_plain : ∃ ctx ∈ contexts (after withText),
    ctx.transcriptText = "agent: Hello." ∧ ∃ root transcriptText c,
      RootIn (after withText).db root ∧
      WorkflowOrchestrator.classification .plain root.payload = .ok (transcriptText, c) ∧
      transcriptText = .str ctx.transcriptText := by
  obtain ⟨ctx, mem, own⟩ : ∃ ctx ∈ contexts (after withText), ctx.transcriptText = "agent: Hello." := by
    decide +kernel
  obtain ⟨f, hf, snapshot, work, built⟩ := of_mem_contexts mem
  obtain ⟨root, isRoot, _, _, _, transcriptText, c, queued, analysed⟩ :=
    @analysed_iff_given settings .plain (fun _ => .ok 0) 0 snapshot (.ofInteraction .plain)
      (after withText) withText served_legacyCall ⟨rfl, rfl⟩ f hf work
  have given : GivesText root.payload := by
    obtain ⟨type, row, mem, rfl⟩ := isRoot
    have all : ∀ row ∈ (after withText).db.queue.jobs.rows,
        row.jobType = .orchestrateInteraction → GivesText row.payload := by decide +kernel
    exact all row mem type
  exact ⟨ctx, mem, own, root, transcriptText, c, isRoot, queued.classified, (analysed ctx built).1.2 given⟩

/-- A payload without the text: what is classified is built from the turns, and what is analysed is
empty. -/
theorem not_analysed : ¬ ∀ (cfg : Settings) (text : Text)
    (fromisoformat : String → Except PyError Time) (utcnow : Time) (w₀ w : World) (as : List Action)
    (f : InFlight) (snapshot : ClaimedLLMJob) (root job : JobIdentity) (transcriptText : Json)
    (c : Classification) (ctx : PostCallContext), Initial w₀ →
    Run (World.step cfg text) Served w₀ as w → f ∈ w.inflight → f.work = .analysis snapshot →
    RootIn w.db root → job.id = snapshot.id → AnalysisOf cfg text root job transcriptText c →
    LLMWorkerService.contextFromSnapshot text fromisoformat utcnow snapshot = .ok ctx →
    text.str transcriptText = ctx.transcriptText := by
  intro same
  have some : 0 < (contexts (after (legacyCall []))).length := by decide +kernel
  obtain ⟨ctx, mem⟩ := List.exists_mem_of_length_pos some
  obtain ⟨f, hf, snapshot, work, built⟩ := of_mem_contexts mem
  obtain ⟨root, isRoot, job, _, id, transcriptText, c, queued, copied⟩ :=
    @queued_of_inflight settings .plain snapshot (.ofInteraction .plain) (after (legacyCall []))
      (legacyCall []) served_legacyCall ⟨rfl, rfl⟩ f hf work
  have equal := same settings .plain (fun _ => .ok 0) 0 (.ofInteraction .plain)
    (after (legacyCall [])) (legacyCall []) f snapshot root job.toJobIdentity transcriptText c ctx
    ⟨rfl, rfl⟩ served_legacyCall hf work isRoot id queued built
  have given : GivesSome root.payload :=
    (analysed_iff queued.classified queued.long copied built).2.1 equal
  obtain ⟨type, row, mem, rfl⟩ := isRoot
  have none : ∀ row ∈ (after (legacyCall [])).db.queue.jobs.rows,
      row.jobType = .orchestrateInteraction → ¬ GivesSome row.payload := by decide +kernel
  exact none row mem type given

end PostCall.Properties
