import Mathlib.Data.Rat.Defs
import Mathlib.Tactic.Common

/-!
# Settings

`src/config.py`, as far as the modelled functions read it. Rates, limits and delays are natural
numbers; the safety factor is its exact value. Times are in microseconds.
-/

namespace PostCall.Model

/-- A point in time, in microseconds. -/
abbrev Time := ℤ

/-- `timedelta(seconds=n)`. -/
def seconds (n : ℤ) : Time := n * 1000000

/-- What a transaction reads from `datetime.utcnow()`: its first reading, its second, and so on. -/
abbrev Clock := ℕ → Time

structure Settings where
  llmProvider : String := "openai"
  llmModel : String := "gpt-4o"
  llmTokensPerMinute : ℕ := 90000
  llmRequestsPerMinute : ℕ := 500
  llmMaxPromptTokens : ℕ := 12000
  llmReservationSafetyFactor : ℚ := 115 / 100
  customerDefaultTokensPerMinute : ℕ := 15000
  recordingInitialRetrySeconds : ℕ := 5
  recordingMaxRetrySeconds : ℕ := 120
  recordingMaxAttempts : ℕ := 8
  workflowMaxAttempts : ℕ := 5
  workflowBaseRetrySeconds : ℕ := 10
  workflowMaxRetrySeconds : ℕ := 900
  jobLockTimeoutSeconds : ℕ := 300

/-- `settings`, with no variable of the environment set. -/
def settings : Settings := {}

end PostCall.Model
