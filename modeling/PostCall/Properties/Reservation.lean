import PostCall.Model.LlmWorker

/-!
# What a reservation covers

The estimate is made from the transcript. The prompt holds the transcript, a fixed text, and the
additional data of the call, and it is not shortened. So a reservation covers its request if and only
if the safety factor pays for what the prompt holds beside the transcript, and the whole prompt fits
under the cap of the estimate.
-/

namespace PostCall.Properties
open PostCall.Python PostCall.Model

variable {cfg : Settings} {dumps : Json → String} {transcript : String} {additionalData : Json}
  {completionBuffer : ℕ}

/-- The characters that the prompt adds to the transcript: those of its fixed text, and the additional
data. -/
def addedLength (dumps : Json → String) (additionalData : Json) : ℕ :=
  410 + (dumps additionalData).length

/-- The prompt and its completion, at the rate of the estimator. -/
def requestTokens (dumps : Json → String) (transcript : String) (additionalData : Json)
    (completionBuffer : ℕ) : ℕ :=
  (buildAnalysisPrompt dumps transcript additionalData).length / 4 + completionBuffer

/-- The estimate before the safety factor. -/
def rawEstimate (transcript : String) (completionBuffer : ℕ) : ℕ :=
  max (transcript.length / 4) 1 + completionBuffer

/-- What the safety factor adds to the estimate. -/
def safetyMargin (cfg : Settings) (transcript : String) (completionBuffer : ℕ) : ℤ :=
  ⌊(rawEstimate transcript completionBuffer : ℚ) * (cfg.llmReservationSafetyFactor - 1)⌋

/-- The tokens of the prompt beside those that the estimate counts for the transcript: at least one is
counted. -/
def addedTokens (dumps : Json → String) (transcript : String) (additionalData : Json) : ℤ :=
  ((transcript.length % 4 + addedLength dumps additionalData) / 4 : ℕ) -
    if transcript.length < 4 then 1 else 0

lemma length_systemPrompt : systemPrompt.length = 374 := by
  simp only [systemPrompt, String.intercalate_cons_cons, String.intercalate_singleton,
    String.length_append]
  decide +kernel

/-- The fixed text of the prompt has 410 characters. -/
lemma length_buildAnalysisPrompt :
    (buildAnalysisPrompt dumps transcript additionalData).length =
      transcript.length + addedLength dumps additionalData := by
  have transcriptLabel : "\n\nTranscript:\n".length = 14 := by decide +kernel
  have contextLabel : "\n\nAdditional context:\n".length = 22 := by decide +kernel
  rw [addedLength, buildAnalysisPrompt, String.length_append, String.length_append,
    String.length_append, String.length_append, length_systemPrompt, transcriptLabel, contextLabel]
  omega

/-- The request is what the estimate starts from, and the tokens that the prompt adds. -/
lemma requestTokens_eq : (requestTokens dumps transcript additionalData completionBuffer : ℤ) =
    rawEstimate transcript completionBuffer + addedTokens dumps transcript additionalData := by
  unfold requestTokens rawEstimate addedTokens
  rw [length_buildAnalysisPrompt]
  split <;> omega

/-- The estimate is the raw estimate with the safety margin, or the cap. -/
lemma estimate_str : Model.estimate cfg (.str transcript) completionBuffer =
    .ok (min (rawEstimate transcript completionBuffer +
      safetyMargin cfg transcript completionBuffer) cfg.llmMaxPromptTokens) := by
  have split : (rawEstimate transcript completionBuffer : ℚ) * cfg.llmReservationSafetyFactor =
      (rawEstimate transcript completionBuffer : ℤ) +
        (rawEstimate transcript completionBuffer : ℚ) * (cfg.llmReservationSafetyFactor - 1) := by
    push_cast
    ring
  rw [safetyMargin, ← Int.floor_intCast_add, ← split]
  rfl

/-- For every transcript and all additional data, the estimate covers the request if and only if the
safety factor pays for what the prompt adds to the transcript, and the prompt is short enough to fit
under the cap with its completion. -/
theorem estimate_covers_iff (cfg : Settings) (dumps : Json → String) (transcript : String)
    (additionalData : Json) (completionBuffer : ℕ) :
    ∃ n, Model.estimate cfg (.str transcript) completionBuffer = .ok n ∧
      (requestTokens dumps transcript additionalData completionBuffer ≤ n ↔
        addedTokens dumps transcript additionalData ≤
            safetyMargin cfg transcript completionBuffer ∧
          (transcript.length + addedLength dumps additionalData) / 4 + completionBuffer ≤
            cfg.llmMaxPromptTokens) := by
  refine ⟨_, estimate_str, ?_⟩
  rw [le_min_iff, requestTokens_eq, Int.add_le_add_iff_left]
  refine and_congr_right fun _ => ?_
  rw [← requestTokens_eq, requestTokens, length_buildAnalysisPrompt]
  exact Nat.cast_le

/-- A call of four turns. -/
def fourTurns : String := "agent: Hi\ncustomer: Hi\nagent: Bye\ncustomer: Bye"

/-- Without additional data, the fixed text of the prompt alone costs more than the safety factor adds
to the estimate of a short transcript. -/
theorem not_estimate_covers : ¬ ∀ (cfg : Settings) (dumps : Json → String) (transcript : String)
    (additionalData : Json) (n : ℤ), 1 ≤ cfg.llmReservationSafetyFactor →
    Model.estimate cfg (.str transcript) = .ok n →
    requestTokens dumps transcript additionalData 500 ≤ n := by
  intro covers
  have raw : rawEstimate fourTurns 500 = 511 := by decide +kernel
  have margin : safetyMargin settings fourTurns 500 = 76 := by
    rw [safetyMargin, raw, Int.floor_eq_iff]
    norm_num [settings]
  have estimated : Model.estimate settings (.str fourTurns) = .ok 587 := by
    rw [estimate_str, raw, margin]
    rfl
  have turns : fourTurns.length = 47 := by decide +kernel
  have empty : "{}".length = 2 := by decide +kernel
  have asked : requestTokens (fun _ => "{}") fourTurns (.dict []) 500 = 614 := by
    rw [requestTokens, length_buildAnalysisPrompt, addedLength, turns, empty]
  have le := covers settings (fun _ => "{}") fourTurns (.dict []) 587 (by norm_num [settings]) estimated
  rw [asked] at le
  exact absurd le (by decide)

end PostCall.Properties
