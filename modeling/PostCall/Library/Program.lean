import Mathlib.Order.Defs.Unbundled
import Mathlib.Tactic.Common

/-!
# Programs that may raise

A program over a state is an `EStateM`: it returns or raises, and a raise keeps what was done
before it, as an exception inside an open transaction does. `commit` is the transaction around such
a program: it keeps the state only of a program that returned. `Within R` is the rule for what a
program can do to its state whether it returns or raises: `R` is a preorder, and each primitive
step stays within it. `Raises P` is the rule for what it can raise. `bind_ok` takes a program that
returned apart.
-/

namespace PostCall.Library

universe u

variable {ε σ α β : Type u}

/-- The state a program ends in, whether it returned or raised. -/
def finalState : EStateM.Result ε σ α → σ
  | .ok _ s => s
  | .error _ s => s

/-- The state after a program that returned. -/
@[simp] lemma finalState_ok {a : α} {s : σ} :
    finalState (.ok a s : EStateM.Result ε σ α) = s := rfl

/-- The state after a program that raised. -/
@[simp] lemma finalState_error {e : ε} {s : σ} :
    finalState (.error e s : EStateM.Result ε σ α) = s := rfl

/-- Run a program as one transaction: a raise rolls everything back. -/
def commit (x : EStateM ε σ α) (s : σ) : Option (α × σ) :=
  match x s with
  | .ok a s' => some (a, s')
  | .error _ _ => none

/-- A transaction is committed if the program returned. -/
lemma commit_eq_some {x : EStateM ε σ α} {s s' : σ} {a : α} :
    commit x s = some (a, s') ↔ x s = .ok a s' := by
  unfold commit
  cases x s <;> simp

/-- Run a program as one transaction, and hand on what it raised. -/
def attempt (x : EStateM ε σ α) (s : σ) : Except ε σ :=
  match x s with
  | .ok _ s' => .ok s'
  | .error e _ => .error e

/-- An attempt has succeeded if the program returned something. -/
lemma attempt_eq_ok {x : EStateM ε σ α} {s s' : σ} :
    attempt x s = .ok s' ↔ ∃ a, x s = .ok a s' := by
  unfold attempt
  cases x s <;> simp

namespace Program

/-! ### What the constructs of the language do -/

/-- `return` leaves the state alone. -/
@[simp] lemma pure_run {a : α} {s : σ} : (pure a : EStateM ε σ α) s = .ok a s := rfl

/-- `get` reads the state. -/
@[simp] lemma get_run {s : σ} : (get : EStateM ε σ σ) s = .ok s s := rfl

/-- `set` writes it. -/
@[simp] lemma set_run {s s' : σ} : (set s' : EStateM ε σ PUnit) s = .ok ⟨⟩ s' := rfl

/-- `modify` changes it. -/
@[simp] lemma modify_run {f : σ → σ} {s : σ} :
    (modify f : EStateM ε σ PUnit) s = .ok ⟨⟩ (f s) := rfl

/-- `throw` raises in the state that it finds. -/
@[simp] lemma throw_run {e : ε} {s : σ} : (throw e : EStateM ε σ α) s = .error e s := rfl

/-- What follows a program runs after it returned. -/
lemma bind_run {x : EStateM ε σ α} {f : α → EStateM ε σ β} {s : σ} :
    (x >>= f) s = match x s with
      | .ok a s' => f a s'
      | .error e s' => .error e s' := rfl

/-- A handler runs in the state of the raise. -/
lemma tryCatch_run {x : EStateM ε σ α} {h : ε → EStateM ε σ α} {s : σ} :
    (tryCatch x h) s = match x s with
      | .ok a s' => .ok a s'
      | .error e s' => h e s' := by
  change EStateM.tryCatch x h s = _
  unfold EStateM.tryCatch
  cases x s <;> rfl

/-- A sequence has returned if both of its parts have. -/
lemma bind_ok {x : EStateM ε σ α} {f : α → EStateM ε σ β} {s s'' : σ} {b : β} :
    (x >>= f) s = .ok b s'' ↔ ∃ a s', x s = .ok a s' ∧ f a s' = .ok b s'' := by
  rw [bind_run]
  cases x s <;> simp

/-- A composition that raised: its first part did, or it returned and the second part did. -/
lemma bind_error {x : EStateM ε σ α} {f : α → EStateM ε σ β} {s s'' : σ} {e : ε} :
    (x >>= f) s = .error e s'' ↔
      x s = .error e s'' ∨ ∃ a s', x s = .ok a s' ∧ f a s' = .error e s'' := by
  rw [bind_run]
  cases x s <;> simp

/-- A sequence after a first part that returned. -/
lemma bind_of_ok {x : EStateM ε σ α} {f : α → EStateM ε σ β} {s s' : σ} {a : α}
    (h : x s = .ok a s') : (x >>= f) s = f a s' := by
  rw [bind_run, h]

/-- A sequence whose first part raised. -/
lemma bind_of_error {x : EStateM ε σ α} {f : α → EStateM ε σ β} {s s' : σ} {e : ε}
    (h : x s = .error e s') : (x >>= f) s = .error e s' := by
  rw [bind_run, h]

/-- A computation without state that returned did so step by step. -/
lemma except_ok {x : Except ε α} {f : α → Except ε β} {b : β} :
    x >>= f = .ok b ↔ ∃ a, x = .ok a ∧ f a = .ok b := by
  cases x <;> simp [bind, Except.bind]

/-- Raise what a computation without state raised. -/
def ofExcept : Except ε α → EStateM ε σ α
  | .ok a => pure a
  | .error e => throw e

/-- A value is returned. -/
@[simp] lemma ofExcept_ok {a : α} : (ofExcept (.ok a) : EStateM ε σ α) = pure a := rfl

/-- An exception is raised. -/
@[simp] lemma ofExcept_error {e : ε} : (ofExcept (.error e) : EStateM ε σ α) = throw e := rfl

/-- A computation without effects returns its value, in the same state. -/
lemma ofExcept_run_ok {x : Except ε α} {a : α} {s s' : σ} :
    (ofExcept x : EStateM ε σ α) s = .ok a s' ↔ x = .ok a ∧ s' = s := by
  cases x <;> simp [eq_comm]

end Program

/-- Whether it returns or raises, the program leaves a state related by `R` to the one before. -/
def Within (R : σ → σ → Prop) (x : EStateM ε σ α) : Prop :=
  ∀ s, R s (finalState (x s))

namespace Within

variable {R : σ → σ → Prop}

/-- A program that returned has kept within the relation. -/
lemma of_ok {x : EStateM ε σ α} (h : Within R x) {s s' : σ} {a : α} (e : x s = .ok a s') :
    R s s' := by
  simpa [e] using h s

/-- So has one that raised. -/
lemma of_error {x : EStateM ε σ α} (h : Within R x) {s s' : σ} {r : ε} (e : x s = .error r s') :
    R s s' := by
  simpa [e] using h s

/-- A program within a relation is within every larger one. -/
lemma mono {R' : σ → σ → Prop} {x : EStateM ε σ α} (h : Within R x)
    (imp : ∀ s s', R s s' → R' s s') : Within R' x :=
  fun s => imp _ _ (h s)

/-- A change of the state within the relation. -/
lemma modify {f : σ → σ} (h : ∀ s, R s (f s)) : Within R (modify f : EStateM ε σ PUnit) := h

section Preorder
variable [IsPreorder σ R]

/-- `return` changes nothing. -/
lemma pure {a : α} : Within R (pure a : EStateM ε σ α) := fun _ => refl_of R _

/-- `throw` changes nothing. -/
lemma throw {e : ε} : Within R (throw e : EStateM ε σ α) := fun _ => refl_of R _

/-- `get` changes nothing. -/
lemma get : Within R (get : EStateM ε σ σ) := fun _ => refl_of R _

/-- A computation without effects changes nothing. -/
lemma ofExcept {x : Except ε α} : Within R (Program.ofExcept x : EStateM ε σ α) := by
  cases x with
  | ok a => exact pure
  | error e => exact throw

/-- Programs within a transitive relation, one after the other. -/
lemma bind {x : EStateM ε σ α} {f : α → EStateM ε σ β}
    (hx : Within R x) (hf : ∀ a, Within R (f a)) : Within R (x >>= f) := by
  intro s
  rw [Program.bind_run]
  cases e : x s with
  | ok a s' => exact trans_of R (hx.of_ok e) (hf a s')
  | error r s' => exact hx.of_error e

/-- The continuation may use what the first part returned, and from where. -/
lemma bind_of {x : EStateM ε σ α} {f : α → EStateM ε σ β}
    (hx : Within R x) (hf : ∀ s a s', x s = .ok a s' → R s' (finalState (f a s'))) :
    Within R (x >>= f) := by
  intro s
  rw [Program.bind_run]
  cases e : x s with
  | ok a s' => exact trans_of R (hx.of_ok e) (hf s a s' e)
  | error r s' => exact hx.of_error e

/-- A program with its handler. -/
lemma tryCatch {x : EStateM ε σ α} {f : ε → EStateM ε σ α} (hx : Within R x)
    (hf : ∀ e, Within R (f e)) : Within R (tryCatch x f) := by
  intro s
  rw [Program.tryCatch_run]
  cases e : x s with
  | ok a s' => exact hx.of_ok e
  | error r s' => exact trans_of R (hx.of_error e) (hf r s')

end Preorder

end Within

/-- Whatever the program raises satisfies `P`. -/
def Raises (P : ε → Prop) (x : EStateM ε σ α) : Prop :=
  ∀ s e s', x s = .error e s' → P e

namespace Raises

variable {P : ε → Prop}

/-- `return` raises nothing. -/
lemma pure {a : α} : Raises P (pure a : EStateM ε σ α) := fun _ _ _ h => by cases h

/-- `get` raises nothing. -/
lemma get : Raises P (get : EStateM ε σ σ) := fun _ _ _ h => by cases h

/-- `set` raises nothing. -/
lemma set {s : σ} : Raises P (set s : EStateM ε σ PUnit) := fun _ _ _ h => by cases h

/-- `modify` raises nothing. -/
lemma modify {f : σ → σ} : Raises P (modify f : EStateM ε σ PUnit) := fun _ _ _ h => by cases h

/-- `throw` raises what it is given. -/
lemma throw {e : ε} (h : P e) : Raises P (throw e : EStateM ε σ α) := fun _ _ _ h' => by
  cases h'
  exact h

/-- A computation without effects raises its own exceptions. -/
lemma ofExcept {x : Except ε α} (h : ∀ e, x = .error e → P e) :
    Raises P (Program.ofExcept x : EStateM ε σ α) := by
  cases x with
  | ok a => exact pure
  | error e => exact throw (h e rfl)

/-- Two programs raise what either of them does. -/
lemma bind {x : EStateM ε σ α} {f : α → EStateM ε σ β} (hx : Raises P x)
    (hf : ∀ a, Raises P (f a)) : Raises P (x >>= f) := by
  intro s e s' h
  rcases Program.bind_error.1 h with h | ⟨a, s₁, _, h⟩
  · exact hx s e s' h
  · exact hf a s₁ e s' h

end Raises

end PostCall.Library
