import Mathlib.Logic.Relation
import Mathlib.Order.Defs.PartialOrder

/-!
# Waiting for resources

Parties hold resources, and each waits for at most one resource at a time. A party waits for another
that holds what it wants; a deadlock is a cycle of parties that wait for each other. There is none
when the resources have levels that rise along every two consecutive waits: whoever is waited for and
waits itself wants a resource of a higher level than the one it is asked for. This asks less than that
everybody takes resources in the order of their levels, since a party that never waits may hold
anything.
-/

namespace PostCall.Library

universe u v w

variable {α : Type u} {ρ : Type v} {wants : α → Option ρ} {holds : α → ρ → Prop} {a b c : α}
  {r r' : ρ}

/-- One party waits, for this resource, for another. -/
structure Waits (wants : α → Option ρ) (holds : α → ρ → Prop) (a b : α) (r : ρ) : Prop where
  wants : wants a = some r
  holds : holds b r
  ne : a ≠ b

/-- One party waits for another. -/
def WaitsFor (wants : α → Option ρ) (holds : α → ρ → Prop) (a b : α) : Prop :=
  ∃ r, Waits wants holds a b r

/-- Some parties wait for each other in a cycle. -/
def Deadlock (wants : α → Option ρ) (holds : α → ρ → Prop) : Prop :=
  ∃ a, Relation.TransGen (WaitsFor wants holds) a a

/-- Who waits for a resource waits for its holder. -/
lemma Waits.waitsFor (h : Waits wants holds a b r) : WaitsFor wants holds a b := ⟨r, h⟩

/-- Two parties that want what the other holds are deadlocked. -/
lemma deadlock_of_two (h : Waits wants holds a b r) (h' : Waits wants holds b a r') :
    Deadlock wants holds := ⟨a, .tail (.single h.waitsFor) h'.waitsFor⟩

/-- Levels that rise along every two consecutive waits. -/
def Rising {κ : Type w} [LT κ] (wants : α → Option ρ) (holds : α → ρ → Prop) (level : ρ → κ) :
    Prop :=
  ∀ ⦃a b c r r'⦄, Waits wants holds a b r → Waits wants holds b c r' → level r < level r'

section

variable {κ : Type w} [Preorder κ] {level : ρ → κ}

/-- Along a chain of waits whose last party waits too, the level rises. -/
lemma Rising.of_transGen (rising : Rising wants holds level)
    (chain : Relation.TransGen (WaitsFor wants holds) a b) (wants_a : wants a = some r)
    (last : Waits wants holds b c r') : level r < level r' := by
  induction chain generalizing c r' with
  | single first =>
    obtain ⟨r₁, first⟩ := first
    obtain rfl : r₁ = r := Option.some.inj (first.wants.symm.trans wants_a)
    exact rising first last
  | tail _ next ih =>
    obtain ⟨r₁, next⟩ := next
    calc level r < level r₁ := ih next
      _ < level r' := rising next last

/-- Rising levels exclude every cycle. -/
theorem Rising.not_deadlock (rising : Rising wants holds level) : ¬ Deadlock wants holds := by
  rintro ⟨a, cycle⟩
  obtain ⟨b, ⟨r, first⟩, _⟩ := Relation.TransGen.head'_iff.1 cycle
  exact lt_irrefl _ (rising.of_transGen cycle first.wants first)

end

end PostCall.Library
