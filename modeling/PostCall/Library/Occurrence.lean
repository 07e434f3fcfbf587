import Mathlib.Data.List.Infix
import Mathlib.Tactic.Common

/-!
# Occurrences of words in a text

`OccursAt w t i` holds if the word `w` stands in the text `t` at the position `i`. An occurrence may lie
inside one of another word; then the first word is a part of the second one (`infix_of_inside`), so
which words can be covered by which is decided on the words alone.
-/

namespace PostCall.Library

universe u

variable {α : Type u} {w v t : List α} {i j : ℕ}

/-- The word stands in the text at the position. -/
def OccursAt (w t : List α) (i : ℕ) : Prop := w <+: t.drop i

instance [DecidableEq α] : Decidable (OccursAt w t i) := inferInstanceAs (Decidable (w <+: t.drop i))

/-- An occurrence of a word at `i` lies inside one of another word at `j`. -/
def Inside (w : List α) (i : ℕ) (v : List α) (j : ℕ) : Prop := j ≤ i ∧ i + w.length ≤ j + v.length

lemma infix_iff_occursAt : w <:+: t ↔ ∃ i, OccursAt w t i := by
  rw [List.infix_iff_prefix_suffix]
  constructor
  · rintro ⟨s, pre, suffix⟩
    rw [List.suffix_iff_eq_drop] at suffix
    refine ⟨t.length - s.length, ?_⟩
    rwa [OccursAt, ← suffix]
  · rintro ⟨i, pre⟩
    exact ⟨t.drop i, pre, List.drop_suffix i t⟩

/-- A word does not stand behind the end of a text. -/
lemma OccursAt.lt_length (h : OccursAt w t i) (ne : w ≠ []) : i < t.length := by
  by_contra ge
  rw [OccursAt, List.drop_eq_nil_of_le (Nat.not_lt.1 ge), List.prefix_nil] at h
  exact ne h

/-- A word of which an occurrence lies inside one of another word stands in that word. -/
lemma OccursAt.of_inside (h : OccursAt w t i) (h' : OccursAt v t j) (inside : Inside w i v j) :
    OccursAt w v (i - j) := by
  obtain ⟨le, fits⟩ := inside
  obtain ⟨rest, e⟩ := h'
  -- the text from `i` on is what is left of the second word, and what follows it
  have here : t.drop i = v.drop (i - j) ++ rest := by
    rw [← Nat.add_sub_of_le le, ← List.drop_drop, ← e, Nat.add_sub_cancel_left,
      List.drop_append_of_le_length (by omega)]
  rw [OccursAt, here] at h
  refine List.prefix_of_prefix_length_le h (List.prefix_append _ _) ?_
  rw [List.length_drop]
  omega

/-- An occurrence inside that of another text is an infix of it. -/
lemma infix_of_inside (h : OccursAt w t i) (h' : OccursAt v t j) (inside : Inside w i v j) :
    w <:+: v := infix_iff_occursAt.2 ⟨_, h.of_inside h' inside⟩

end PostCall.Library
