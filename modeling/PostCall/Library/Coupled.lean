import PostCall.Library.Program

/-!
# Programs side by side

Two runs from states that look alike: they return alike or raise the same, and leave states that
look alike. `R` says which states look alike, and `V` which results do. The two runs need not be of one
program, so that what follows a result may depend on it. The rules follow the constructs of the
language; `Coupled.commit` is the rule for a transaction.
-/

namespace PostCall.Library

universe u

variable {ε σ α β : Type u} {R : σ → σ → Prop} {V : α → α → Prop} {W : β → β → Prop}

/-- Ends of two programs that look alike. -/
inductive Alike (R : σ → σ → Prop) (V : α → α → Prop) :
    EStateM.Result ε σ α → EStateM.Result ε σ α → Prop where
  | ok {a a' s s'} :
    V a a' →
    R s s' →
    Alike R V (.ok a s) (.ok a' s')
  | error {e s s'} :
    R s s' →
    Alike R V (.error e s) (.error e s')

/-- From states that look alike, the two programs end alike. -/
def Coupled (R : σ → σ → Prop) (V : α → α → Prop) (x y : EStateM ε σ α) : Prop :=
  ∀ s s', R s s' → Alike R V (x s) (y s')

namespace Coupled

lemma pure {a a' : α} (h : V a a') : Coupled R V (pure a : EStateM ε σ α) (pure a') :=
  fun _ _ r => .ok h r

lemma throw {e : ε} : Coupled R V (throw e : EStateM ε σ α) (throw e) := fun _ _ r => .error r

lemma get : Coupled R R (get : EStateM ε σ σ) get := fun _ _ r => .ok r r

/-- Both change their state, and keep it related. -/
lemma modify {f g : σ → σ} (h : ∀ s s', R s s' → R (f s) (g s')) :
    Coupled R Eq (modify f : EStateM ε σ PUnit) (modify g) := fun s s' r => .ok rfl (h s s' r)

/-- A computation without effects is the same on both sides. -/
lemma ofExcept {x : Except ε α} :
    Coupled R Eq (Program.ofExcept x : EStateM ε σ α) (Program.ofExcept x) := by
  cases x with
  | ok a => exact pure rfl
  | error e => exact throw

lemma bind {x y : EStateM ε σ α} {f g : α → EStateM ε σ β} (hx : Coupled R V x y)
    (hf : ∀ a a', V a a' → Coupled R W (f a) (g a')) : Coupled R W (x >>= f) (y >>= g) := by
  intro s s' r
  have ends := hx s s' r
  rw [Program.bind_run, Program.bind_run]
  generalize x s = p at ends ⊢
  generalize y s' = q at ends ⊢
  cases ends with
  | ok v r => exact hf _ _ v _ _ r
  | error r => exact .error r

/-- What follows a result that is the same in both runs. -/
lemma bind_eq {x y : EStateM ε σ α} {f g : α → EStateM ε σ β} (hx : Coupled R Eq x y)
    (hf : ∀ a, Coupled R W (f a) (g a)) : Coupled R W (x >>= f) (y >>= g) :=
  bind hx fun a _ e => e ▸ hf a

lemma tryCatch {x y : EStateM ε σ α} {f g : ε → EStateM ε σ α} (hx : Coupled R V x y)
    (hf : ∀ e, Coupled R V (f e) (g e)) : Coupled R V (tryCatch x f) (tryCatch y g) := by
  intro s s' r
  have ends := hx s s' r
  rw [Program.tryCatch_run, Program.tryCatch_run]
  generalize x s = p at ends ⊢
  generalize y s' = q at ends ⊢
  cases ends with
  | ok v r => exact .ok v r
  | error r => exact hf _ _ _ r

end Coupled

/-- What two transactions that end alike commit. -/
lemma Alike.commit {x y : EStateM ε σ α} {s s' : σ} (h : Alike R V (x s) (y s')) :
    (∃ a a' t t', commit x s = some (a, t) ∧ commit y s' = some (a', t') ∧ V a a' ∧ R t t') ∨
      (commit x s = none ∧ commit y s' = none) := by
  unfold Library.commit
  generalize x s = p at h ⊢
  generalize y s' = q at h ⊢
  cases h with
  | ok v r => exact .inl ⟨_, _, _, _, rfl, rfl, v, r⟩
  | error => exact .inr ⟨rfl, rfl⟩

end PostCall.Library
