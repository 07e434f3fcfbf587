import PostCall.Machine.Reports
import PostCall.Model.World

/-!
# Error reports of an interaction

Each handled failure has its entry in the log of the interaction exactly when no failure of the
interaction is handled between the read and the commit of another one. The count of retries is the
length of the log in any case, since one UPDATE writes both.
-/

namespace PostCall.Properties
open PostCall.Library PostCall.Python PostCall.Model PostCall.Machine

variable {s : Reports} {row : Interaction} {as : List (SharedAction Report)}

/-- The log has one entry for each handled failure, and the count is that of the entries. -/
def Complete (s : Reports) : Prop :=
  s.value.errorLog.Perm (s.committed.map Report.entry) ∧ s.value.retryCount = s.value.errorLog.length

/-- The log of an interaction on which failures have been handled one after the other. -/
lemma errorLog_foldl {reports : List Report} :
    (reports.foldl (fun row report => row.appendError report.entry) row).errorLog =
      row.errorLog ++ reports.map Report.entry := by
  induction reports generalizing row with
  | nil => exact (List.append_nil _).symm
  | cons report reports ih =>
    rw [List.foldl_cons, ih, List.map_cons, Interaction.appendError, List.append_assoc]
    rfl

/-- What has been read, and what is there, has as many entries as it counts retries. -/
lemma retryCount_eq (run : Run Reports.step anyStep (.start row) as s) :
    s.value.retryCount = s.value.errorLog.length ∧
      ∀ n r, s.readings n = some r → r.seen.retryCount = r.seen.errorLog.length := by
  refine run.invariant (I := fun s => s.value.retryCount = s.value.errorLog.length ∧ ∀ n r,
    s.readings n = some r → r.seen.retryCount = r.seen.errorLog.length)
    ⟨rfl, fun _ _ h => by cases h⟩ fun s a h _ => ?_
  have readings : ∀ n r, (Reports.step s a).readings n = some r →
      r.seen.retryCount = r.seen.errorLog.length := by
    intro n r found
    rcases Shared.of_readings_step found with old | ⟨seen, _⟩
    · exact h.2 n r old
    · rw [seen]
      exact h.1
  refine ⟨?_, readings⟩
  rcases Shared.step_cases flushError s a with ⟨_, value, _⟩ | ⟨n, r, _, _, found, value, _⟩
  · rw [Reports.step, value]
    exact h.1
  · rw [Reports.step, value]
    simp [flushError, Interaction.appendError, h.2 n r found]

/-- The number of entries in the log. -/
def entries (row : Interaction) : ℕ := row.errorLog.length

/-- A flushed report is one entry more than was seen. -/
lemma entries_flushError (seen : Interaction) (report : Report) (row : Interaction) :
    entries (flushError seen report row) = entries seen + 1 := by
  simp [entries, flushError, Interaction.appendError]

/-- In every interleaving of the failures of one interaction, the log is complete if and only if every
commit is timely: no failure of the interaction has been committed since what it writes was read. -/
theorem complete_iff_timely (row : Interaction) (as : List (SharedAction Report)) :
    Complete (as.foldl Reports.step (.start row)) ↔
      Run Reports.step Shared.Timely (.start row) as (as.foldl Reports.step (.start row)) := by
  have run : Run Reports.step anyStep (.start row) as _ := .of_foldl as
  have counts := Shared.size_eq_iff_timely entries_flushError run
  constructor
  · intro complete
    refine counts.1 ?_
    have length := complete.1.length_eq
    rw [List.length_map] at length
    exact length.trans (Nat.zero_add _).symm
  · intro timely
    have serial := Shared.serial_of_timely (fun _ _ => flushError_self) timely
    refine ⟨?_, (retryCount_eq run).1⟩
    rw [serial, errorLog_foldl]
    exact .refl _

/-- The recording of a call and its analysis fail, and both transactions read the interaction before
either commits. The second write waits for the first. -/
def bothFail : List (SharedAction Report) := [
  .read 0 ⟨1, { stage := "recording_worker", errorCode := "TimeoutError", errorMessage := "" }, 0⟩,
  .read 1 ⟨2, { stage := "llm_worker", errorCode := "LLM_RATE_LIMIT", errorMessage := "" }, 0⟩,
  .write 0,
  .write 1,
  .commit 0,
  .write 1,
  .commit 1]

/-- One of the two reports is lost. -/
theorem not_complete : ¬ ∀ (row : Interaction) (as : List (SharedAction Report)),
    Complete (as.foldl Reports.step (.start row)) := by
  intro complete
  have length := (complete .plain bothFail).1.length_eq
  revert length
  decide +kernel

end PostCall.Properties
