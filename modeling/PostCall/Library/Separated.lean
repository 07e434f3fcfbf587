import Mathlib.Tactic.Common

/-!
# Separated events

In a history that lists the newest event first, `Separated p r` says that between two events of kind
`p` there is one of kind `r`. To carry this along a run it is enough to know, when a `p` is added,
that the history is `Cleared p r`: no `p` has come since the last `r`.
-/

namespace PostCall.Library

universe u

variable {α : Type u} {p r : α → Prop} {a : α} {l : List α}

/-- No `p` has come since the last `r`. -/
def Cleared (p r : α → Prop) : List α → Prop
  | [] => True
  | a :: l => r a ∨ (¬ p a ∧ Cleared p r l)

/-- Each `p` came when the history before it was cleared. -/
def Separated (p r : α → Prop) : List α → Prop
  | [] => True
  | a :: l => (p a → Cleared p r l) ∧ Separated p r l

lemma Cleared.of_release (h : r a) : Cleared p r (a :: l) := .inl h

/-- An event of another kind leaves it cleared. -/
lemma Cleared.cons (cleared : Cleared p r l) (h : ¬ p a) : Cleared p r (a :: l) := .inr ⟨h, cleared⟩

/-- An event of another kind leaves the history separated. -/
lemma Separated.cons (separated : Separated p r l) (h : ¬ p a) : Separated p r (a :: l) :=
  ⟨fun hp => absurd hp h, separated⟩

/-- The older part of a separated history is separated. -/
lemma Separated.append_right {l' : List α} (h : Separated p r (l' ++ l)) : Separated p r l := by
  induction l' with
  | nil => exact h
  | cons a l' ih => exact ih h.2

/-- In a cleared history, a release has come since each `p`. -/
lemma Cleared.exists_release {l' : List α} (h : Cleared p r (l ++ a :: l')) (hp : p a)
    (hr : ¬ r a) : ∃ b ∈ l, r b := by
  induction l with
  | nil =>
    rcases h with h | ⟨h, _⟩
    · exact absurd h hr
    · exact absurd hp h
  | cons b l ih =>
    rcases h with h | ⟨_, h⟩
    · exact ⟨b, List.mem_cons_self, h⟩
    · obtain ⟨c, mem, hc⟩ := ih h
      exact ⟨c, List.mem_cons_of_mem _ mem, hc⟩

/-- Between two events of kind `p` there is one of kind `r`. -/
theorem Separated.between {b : α} {l₁ l₂ l₃ : List α}
    (h : Separated p r (l₁ ++ b :: (l₂ ++ a :: l₃))) (hb : p b) (ha : p a) (hr : ¬ r a) :
    ∃ c ∈ l₂, r c :=
  (h.append_right.1 hb).exists_release ha hr

end PostCall.Library
