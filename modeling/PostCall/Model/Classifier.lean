import PostCall.Model.Interactions

/-!
# Classification

`src/scheduler/classifier.py` and `src/llm/token_estimator.py`, with what the orchestrator extracts
from a payload before it calls them. The lower case of a text is the platform's.
-/

namespace PostCall.Model
open PostCall.Python

structure Classification where
  skipLlm : Bool
  priority : JobPriority
  callStage : String
  reason : String
  deriving DecidableEq

def highKeywords : List String := [
  "confirmed", "booked", "demo", "appointment", "reschedule", "manager", "complaint", "escalate",
  "unacceptable"]

def mediumKeywords : List String := ["callback", "call back", "later", "baad mein", "follow-up"]

def lowKeywords : List String := [
  "not interested", "dont call", "don't call", "wrong number", "already booked",
  "already purchased", "already done"]

/-- `keyword in text`. -/
def contains (text keyword : String) : Bool :=
  text.toList.tails.any keyword.toList.isPrefixOf

def containsAny (text : String) (keywords : List String) : Bool := keywords.any (contains text)

/-- `InteractionClassifier.classify`. -/
def classify (text : Text) (transcript : List Json) (transcriptText additionalData : Json) :
    Except PyError Classification := do
  if transcript.length < 4 then
    return ⟨true, .low, "short_call", "short_transcript"⟩
  let additionalData ← additionalData.asDict
  let disposition := text.lower (text.str (orElse (additionalData.get? "disposition") (.str "")))
  let combined := text.lower (text.str transcriptText ++ " " ++ disposition)
  if containsAny combined highKeywords then
    return ⟨false, .high, "needs_analysis", "high_value_keyword"⟩
  if containsAny combined mediumKeywords then
    return ⟨false, .medium, "needs_analysis", "medium_value_keyword"⟩
  if containsAny combined lowKeywords then
    return ⟨false, .low, "needs_analysis", "low_value_keyword"⟩
  return ⟨false, .medium, "needs_analysis", "default_medium"⟩

/-- `len(x)`. -/
def Json.len : Json → Except PyError ℕ
  | .str s => .ok s.length
  | .list items => .ok items.length
  | .dict items => .ok items.length
  | j => .error (.typeError s!"object of type '{j.typeName}' has no len()")

/-- `TokenEstimator.estimate`. -/
def estimate (cfg : Settings) (promptOrTranscript : Json) (completionBuffer : ℕ := 500) :
    Except PyError ℤ := do
  let estimatedPromptTokens := max ((← Json.len promptOrTranscript) / 4) 1
  let rawEstimate := estimatedPromptTokens + completionBuffer
  return min ⌊(rawEstimate : ℚ) * cfg.llmReservationSafetyFactor⌋ cfg.llmMaxPromptTokens

def transcript (payload : Dict) : Except PyError (List Json) := do
  let conversationData ← (orElse (payload.get? "conversation_data") (.dict [])).asDict
  match orElse (conversationData.get? "transcript") (.list []) with
  | .list turns => return turns
  | _ => return []

/-- One line of `_transcript_text`. -/
def turnText (text : Text) (turn : Json) : Except PyError String := do
  let turn ← turn.asDict
  return text.str (turn.getD "role" (.str "unknown")) ++ ": " ++
    text.str (turn.getD "content" (.str ""))

def transcriptText (text : Text) (transcript : List Json) : Except PyError String := do
  return "\n".intercalate (← transcript.mapM (turnText text))

/-- A transcript of fewer than four turns is short, whatever else the payload holds. -/
lemma classify_of_short {text : Text} {turns : List Json} {transcriptText additionalData : Json}
    (short : turns.length < 4) :
    classify text turns transcriptText additionalData =
      .ok ⟨true, .low, "short_call", "short_transcript"⟩ := by
  simp [classify, short]
  rfl

/-- The language model is skipped for a short transcript only. -/
lemma skipLlm_iff {text : Text} {turns : List Json} {transcriptText additionalData : Json}
    {c : Classification} (h : classify text turns transcriptText additionalData = .ok c) :
    c.skipLlm ↔ turns.length < 4 := by
  by_cases short : turns.length < 4
  · rw [classify_of_short short] at h
    cases h
    simp [short]
  · unfold classify at h
    rw [if_neg short] at h
    cases e : additionalData.asDict with
    | error r => simp [e, bind, Except.bind] at h
    | ok d =>
      simp only [e, bind, Except.bind, pure, Except.pure] at h
      split at h
      · cases h; simp [short]
      · split at h
        · cases h; simp [short]
        · split at h <;> (cases h; simp [short])

/-- A call without an analysis has the stage of a short one. -/
lemma callStage_of_short {text : Text} {turns : List Json} {transcriptText additionalData : Json}
    {c : Classification} (h : classify text turns transcriptText additionalData = .ok c)
    (skip : c.skipLlm) : c.callStage = "short_call" := by
  rw [classify_of_short ((skipLlm_iff h).1 skip)] at h
  cases h
  rfl

end PostCall.Model
