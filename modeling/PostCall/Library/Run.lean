import Mathlib.Data.List.Induction
import Mathlib.Order.Defs.Unbundled
import Mathlib.Tactic.Common

/-!
# Runs of a system

A system is a total step function over labelled actions; what cannot happen in a state leaves it
alone. A `Run ok` is a sequence of actions of which each met the condition `ok` in the state it was
taken in. The rules: an invariant that each such step keeps holds after the run, and a relation
between two states that each step keeps, and that composes, holds between a state and every later
one. What the steps emit is a list of its own, and a relation of an entry to all later ones is had
from what a state says of the entries before it (`Run.pairwise_emitted`). A `Path` is the same for a
labelled transition relation, with the labels forgotten; `Path.map` carries it to another system along
a function of the states, when each move goes to at most one.
-/

namespace PostCall.Library

universe u v

variable {σ : Type u} {α : Type v} {step : σ → α → σ} {ok ok' : σ → α → Prop}

/-- The runs from `s₀` whose steps all meet `ok`, with the actions taken. -/
inductive Run (step : σ → α → σ) (ok : σ → α → Prop) (s₀ : σ) : List α → σ → Prop where
  | nil :
    Run step ok s₀ [] s₀
  | snoc {as s a} :
    Run step ok s₀ as s →
    ok s a →
    Run step ok s₀ (as ++ [a]) (step s a)

/-- Every step may be taken. -/
abbrev anyStep : σ → α → Prop := fun _ _ => True

namespace Run

variable {s₀ s : σ} {as : List α}

/-- An invariant of the steps holds after every run. -/
lemma invariant {I : σ → Prop} (run : Run step ok s₀ as s) (init : I s₀)
    (keep : ∀ s a, I s → ok s a → I (step s a)) : I s := by
  induction run with
  | nil => exact init
  | snoc _ h ih => exact keep _ _ ih h

/-- A run under a condition is one under every weaker condition. -/
lemma mono (run : Run step ok s₀ as s) (imp : ∀ s a, ok s a → ok' s a) : Run step ok' s₀ as s := by
  induction run with
  | nil => exact .nil
  | snoc _ h ih => exact .snoc ih (imp _ _ h)

lemma append {s' : σ} {bs : List α} (run : Run step ok s₀ as s) (later : Run step ok s bs s') :
    Run step ok s₀ (as ++ bs) s' := by
  induction later with
  | nil => simpa using run
  | snoc _ h ih =>
    rw [← List.append_assoc]
    exact .snoc ih h

lemma cons {a : α} (h : ok s₀ a) (run : Run step ok (step s₀ a) as s) :
    Run step ok s₀ (a :: as) s := append (.snoc .nil h) run

/-- Whether each action of a list meets a decidable condition in its turn. -/
def checked (step : σ → α → σ) (ok : σ → α → Prop) [∀ s a, Decidable (ok s a)] :
    σ → List α → Bool
  | _, [] => true
  | s, a :: as => decide (ok s a) && checked step ok (step s a) as

/-- A list of actions that passes the check is a run. -/
lemma of_checked [∀ s a, Decidable (ok s a)] (h : checked step ok s₀ as) :
    Run step ok s₀ as (as.foldl step s₀) := by
  induction as generalizing s₀ with
  | nil => exact .nil
  | cons a as ih =>
    simp only [checked, Bool.and_eq_true, decide_eq_true_eq] at h
    exact cons h.1 (ih h.2)

/-- A run whose actions all satisfy a predicate, read as a run that met it at each step. -/
lemma of_forall_mem {p : α → Prop} (run : Run step ok s₀ as s) (all : ∀ a ∈ as, p a) :
    Run step (fun s a => ok s a ∧ p a) s₀ as s := by
  induction run with
  | nil => exact .nil
  | snoc _ h ih =>
    have earlier := ih fun a mem => all a (List.mem_append_left _ mem)
    exact .snoc earlier ⟨h, all _ (List.mem_append_right _ List.mem_cons_self)⟩

/-- The steps of a run, read as a run that met an invariant at each of them. -/
lemma strengthen {I : σ → Prop} (run : Run step ok s₀ as s) (init : I s₀)
    (keep : ∀ s a, I s → ok s a → I (step s a)) :
    Run step (fun s a => I s ∧ ok s a) s₀ as s := by
  induction run with
  | nil => exact .nil
  | snoc earlier h ih => exact .snoc ih ⟨earlier.invariant init keep, h⟩

/-- A list of actions is a run, and it ends where folding the step function ends. -/
lemma of_foldl (as : List α) : Run step anyStep s₀ as (as.foldl step s₀) := by
  induction as using List.reverseRecOn with
  | nil => exact .nil
  | append_singleton as a ih =>
    rw [List.foldl_append]
    exact .snoc ih trivial

/-- A run ends where folding the step function ends. -/
lemma eq_foldl (run : Run step ok s₀ as s) : s = as.foldl step s₀ := by
  induction run with
  | nil => rfl
  | snoc _ _ ih => rw [List.foldl_append, ← ih]; rfl

end Run

section Emitted

variable {ε : Type*} {emit : σ → α → List ε}

/-- What the steps of a list of actions emit, in order. -/
def emitted (step : σ → α → σ) (emit : σ → α → List ε) : σ → List α → List ε
  | _, [] => []
  | s, a :: as => emit s a ++ emitted step emit (step s a) as

/-- What two lists of actions emit, one after the other. -/
lemma emitted_append {s : σ} {as bs : List α} : emitted step emit s (as ++ bs) =
    emitted step emit s as ++ emitted step emit (as.foldl step s) bs := by
  induction as generalizing s with
  | nil => rfl
  | cons a as ih => simp only [List.cons_append, emitted, ih, List.foldl_cons, List.append_assoc]

/-- Every entry is emitted by some step. -/
lemma mem_emitted {s : σ} {as : List α} {e : ε} (mem : e ∈ emitted step emit s as) :
    ∃ s' a, e ∈ emit s' a := by
  induction as generalizing s with
  | nil => exact (List.not_mem_nil mem).elim
  | cons a as ih =>
    rcases List.mem_append.1 mem with mem | mem
    · exact ⟨s, a, mem⟩
    · exact ih mem

namespace Run

variable {s₀ s : σ} {as : List α}

/-- What a run and one more action emit. -/
lemma emitted_snoc {a : α} (run : Run step ok s₀ as s) :
    emitted step emit s₀ (as ++ [a]) = emitted step emit s₀ as ++ emit s a := by
  rw [emitted_append, ← run.eq_foldl, emitted, emitted, List.append_nil]

/-- What holds of an entry when it is emitted, and of an older one after each step, holds of every entry
after the run. -/
lemma forall_emitted {past : σ → ε → Prop} (run : Run step ok s₀ as s)
    (start : ∀ s a e, ok s a → e ∈ emit s a → past (step s a) e)
    (keep : ∀ s a e, past s e → ok s a → past (step s a) e) :
    ∀ e ∈ emitted step emit s₀ as, past s e := by
  induction run with
  | nil => exact fun _ h => nomatch h
  | snoc earlier h ih =>
    intro e mem
    rw [earlier.emitted_snoc] at mem
    rcases List.mem_append.1 mem with mem | mem
    · exact keep _ _ _ (ih e mem) h
    · exact start _ _ _ h mem

/-- A relation between the entries of each step, and between an entry that the state knows of and one
that the next step emits, is one between every entry and all later ones. -/
lemma pairwise_emitted {r : ε → ε → Prop} (run : Run step ok s₀ as s) (past : σ → ε → Prop)
    (own : ∀ s a, ok s a → (emit s a).Pairwise r)
    (start : ∀ s a e, ok s a → e ∈ emit s a → past (step s a) e)
    (keep : ∀ s a e, past s e → ok s a → past (step s a) e)
    (later : ∀ s a e e', past s e → ok s a → e' ∈ emit s a → r e e') :
    (emitted step emit s₀ as).Pairwise r := by
  induction run with
  | nil => exact .nil
  | snoc earlier h ih =>
    rw [earlier.emitted_snoc]
    refine List.pairwise_append.2 ⟨ih, own _ _ h, fun e mem e' mem' => ?_⟩
    exact later _ _ e e' (earlier.forall_emitted start keep e mem) h mem'

/-- A measure that each step lowers by as many as it emits, down to zero, is used up by so many
entries. -/
lemma exhausts {μ : σ → ℕ} (run : Run step ok s₀ as s)
    (less : ∀ s a, ok s a → μ (step s a) ≤ μ s - (emit s a).length) :
    μ s ≤ μ s₀ - (emitted step emit s₀ as).length := by
  induction run with
  | nil => exact Nat.le_refl _
  | @snoc as s a earlier h ih =>
    rw [earlier.emitted_snoc, List.length_append]
    have lower := less s a h
    omega

end Run

end Emitted

section Path

variable {lab : Type*} {τ : Type*} {lab' : Type*}

/-- The states that moves lead to, each of them one that `ok` lets be made in its state. -/
inductive Path (move : σ → lab → σ → Prop) (ok : σ → lab → Prop) (s₀ : σ) : σ → Prop where
  | refl :
    Path move ok s₀ s₀
  | tail {s l s'} :
    Path move ok s₀ s →
    move s l s' →
    ok s l →
    Path move ok s₀ s'

namespace Path

variable {move : σ → lab → σ → Prop} {ok ok' : σ → lab → Prop} {s₀ s s' : σ}

lemma single {l : lab} (m : move s l s') (h : ok s l) : Path move ok s s' := .tail .refl m h

lemma trans (p : Path move ok s₀ s) (q : Path move ok s s') : Path move ok s₀ s' := by
  induction q with
  | refl => exact p
  | tail _ m h ih => exact .tail ih m h

instance : IsPreorder σ (Path move ok) where
  refl _ := .refl
  trans _ _ _ := trans

/-- An invariant of the moves holds at the end of every path. -/
lemma invariant {I : σ → Prop} (p : Path move ok s₀ s) (init : I s₀)
    (keep : ∀ s l s', I s → move s l s' → ok s l → I s') : I s := by
  induction p with
  | refl => exact init
  | tail _ m h ih => exact keep _ _ _ ih m h

/-- A path under a condition is one under every weaker condition. -/
lemma mono (p : Path move ok s₀ s) (imp : ∀ s l, ok s l → ok' s l) : Path move ok' s₀ s := by
  induction p with
  | refl => exact .refl
  | tail _ m h ih => exact .tail ih m (imp _ _ h)

/-- A path whose moves an invariant of the path makes moves of another kind. -/
lemma strengthen {I : σ → Prop} (p : Path move ok s₀ s) (init : I s₀)
    (keep : ∀ s l s', I s → move s l s' → ok s l → I s') (imp : ∀ s l, I s → ok s l → ok' s l) :
    Path move ok' s₀ s := by
  induction p with
  | refl => exact .refl
  | tail earlier m h ih => exact .tail ih m (imp _ _ (earlier.invariant init keep) h)

/-- A path is carried along a function, if each move goes to a move or to nothing. -/
lemma map {move' : τ → lab' → τ → Prop} {okτ : τ → lab' → Prop} (f : σ → τ)
    (p : Path move ok s₀ s)
    (image : ∀ s l s', move s l s' → ok s l →
      f s' = f s ∨ ∃ k, move' (f s) k (f s') ∧ okτ (f s) k) :
    Path move' okτ (f s₀) (f s) := by
  induction p with
  | refl => exact .refl
  | tail _ m h ih =>
    obtain e | ⟨k, m', h'⟩ := image _ _ _ m h
    · rwa [e]
    · exact .tail ih m' h'

end Path

end Path

end PostCall.Library
