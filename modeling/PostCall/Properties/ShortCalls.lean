import PostCall.Model.World

/-!
# Short calls

An interaction counts what its transcript is, whatever its type; the orchestrator counts the turns of a
list, and takes any other transcript for an empty one. The two agree for a list and for nothing at all.
The interaction raises for a null, and takes a text for a long call that the orchestrator skips.
-/

namespace PostCall.Properties
open PostCall.Library PostCall.Python PostCall.Model

variable {text : Text} {interaction : Interaction} {d payload : Dict} {transcriptText : Json}
  {c : Classification}

/-- The turns that the orchestrator takes from a transcript. -/
def turnsOf? : Option Json → List Json
  | some (.list turns) => turns
  | _ => []

lemma orElse_dict : orElse (some (.dict d)) (.dict []) = .dict d := by
  cases d <;> rfl

/-- The orchestrator looks at the turns of a list. -/
lemma transcript_of_conversation (carries : payload.get? "conversation_data" = some (.dict d)) :
    transcript payload = .ok (turnsOf? (d.get? "transcript")) := by
  unfold transcript
  rw [carries, orElse_dict]
  simp only [Json.asDict, bind, Except.bind]
  cases d.get? "transcript" with
  | none => rfl
  | some value =>
    cases value with
    | list turns => cases turns <;> rfl
    | bool b => cases b <;> rfl
    | null => rfl
    | int n => by_cases zero : n = 0 <;> simp [orElse, Json.truthy, zero, turnsOf?] <;> rfl
    | float q => by_cases zero : q = 0 <;> simp [orElse, Json.truthy, zero, turnsOf?] <;> rfl
    | nonFinite x => rfl
    | str s => by_cases empty : s = "" <;> simp [orElse, Json.truthy, empty, turnsOf?] <;> rfl
    | dict items => cases items <;> rfl

/-- The orchestrator skips the language model for fewer than four turns of a list. -/
lemma skipLlm_of_conversation (carries : payload.get? "conversation_data" = some (.dict d))
    (classified : WorkflowOrchestrator.classification text payload = .ok (transcriptText, c)) :
    c.skipLlm ↔ (turnsOf? (d.get? "transcript")).length < 4 := by
  obtain ⟨turns, read, rest⟩ := Program.except_ok.1 classified
  obtain ⟨given, _, rest⟩ := Program.except_ok.1 rest
  obtain ⟨c', classified, rest⟩ := Program.except_ok.1 rest
  cases rest
  cases read.symm.trans (transcript_of_conversation carries)
  exact skipLlm_iff classified

/-- A transcript that both count alike: a list, or nothing, or a text or an object that is short. -/
def CountedAlike : Option Json → Prop
  | none | some (.list _) => True
  | some (.str s) => s.length < 4
  | some (.dict items) => items.length < 4
  | _ => False

/-- The interaction counts whatever its transcript is. -/
lemma isShortTranscript_eq (object : interaction.conversationData = .dict d) :
    interaction.isShortTranscript =
      (Json.len (d.getD "transcript" (.list []))).map fun n => decide (n < 4) := by
  unfold Interaction.isShortTranscript Interaction.conversation
  rw [object, orElse_dict]
  simp only [Json.asDict, bind, Except.bind]
  cases Json.len (d.getD "transcript" (.list [])) <;> rfl

/-- What both make of a transcript is the same exactly if they count it alike. -/
lemma len_eq_iff (transcript : Option Json) :
    (Json.len (transcript.getD (.list []))).map (fun n => decide (n < 4)) =
      .ok (decide ((turnsOf? transcript).length < 4)) ↔ CountedAlike transcript := by
  cases transcript with
  | none => exact iff_of_true rfl trivial
  | some value =>
    cases value with
    | list turns => exact iff_of_true rfl trivial
    | str s => simp [Json.len, Except.map, turnsOf?, CountedAlike]
    | dict items => simp [Json.len, Except.map, turnsOf?, CountedAlike]
    | _ => exact iff_of_false nofun id

/-- For every interaction with an object of conversation data, and every payload that carries it and
that the orchestrator classifies: the two notions of a short call agree exactly if the transcript is
a list, or is not there, or is a text or an object that is short. -/
theorem shortCall_iff (object : interaction.conversationData = .dict d)
    (carries : payload.get? "conversation_data" = some (.dict d))
    (classified : WorkflowOrchestrator.classification text payload = .ok (transcriptText, c)) :
    interaction.isShortTranscript = .ok c.skipLlm ↔ CountedAlike (d.get? "transcript") := by
  have skip : c.skipLlm = decide ((turnsOf? (d.get? "transcript")).length < 4) :=
    Bool.eq_iff_iff.2 ((skipLlm_of_conversation carries classified).trans decide_eq_true_iff.symm)
  rw [isShortTranscript_eq object, skip]
  exact len_eq_iff _

/-- An interaction with this transcript. -/
def withTranscript (transcript : Json) : Interaction :=
  { Interaction.plain with conversationData := .dict [("transcript", transcript)] }

/-- A payload that carries the conversation of that interaction. -/
def carrying (transcript : Json) : Dict :=
  [("conversation_data", (withTranscript transcript).conversationData)]

/-- The classification of a short call. -/
def skipped : Classification := ⟨true, .low, "short_call", "short_transcript"⟩

theorem shortCall_iff_plain :
    (withTranscript (.list [.null, .null])).isShortTranscript = .ok skipped.skipLlm := by
  have carries : Dict.get? (("transcript_text", .str "hang-up") :: carrying (.list [.null, .null]))
    "conversation_data" = some (.dict [("transcript", .list [.null, .null])]) := rfl
  have classified : WorkflowOrchestrator.classification .plain
    (("transcript_text", .str "hang-up") :: carrying (.list [.null, .null])) =
      .ok (.str "hang-up", skipped) := rfl
  exact (shortCall_iff rfl carries classified).2 trivial

/-- A null for a transcript: the orchestrator takes the call for a short one, and the interaction
raises. -/
theorem not_shortCall : ¬ ∀ (text : Text) (interaction : Interaction) (d payload : Dict)
    (transcriptText : Json) (c : Classification), interaction.conversationData = .dict d →
    payload.get? "conversation_data" = some (.dict d) →
    (d.get? "transcript" = none ∨ (∃ turns, d.get? "transcript" = some (.list turns)) ∨
      (∃ s, d.get? "transcript" = some (.str s)) ∨ d.get? "transcript" = some .null) →
    WorkflowOrchestrator.classification text payload = .ok (transcriptText, c) →
    interaction.isShortTranscript = .ok c.skipLlm := by
  intro h
  have agrees := h .plain (withTranscript .null) [("transcript", .null)] (carrying .null) (.str "")
    skipped rfl rfl (.inr (.inr (.inr rfl))) (by rfl)
  cases agrees

end PostCall.Properties
