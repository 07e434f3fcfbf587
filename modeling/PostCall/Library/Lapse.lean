import Mathlib.Algebra.BigOperators.Group.List.Basic
import Mathlib.Algebra.Order.BigOperators.Group.List
import Mathlib.Algebra.Ring.Int.Defs
import Mathlib.Data.Int.Order.Basic
import Mathlib.Tactic.Common
import PostCall.Library.Position

/-!
# Memories that lapse

Some events of a timed history restart a memory, which lapses when nothing restarts it for `ttl`. What
was before the lapse is forgotten (`Forgotten`), and the rest is remembered. A restart carries over what
is remembered at its time; any other event changes nothing for the events before it. `total` is the sum
of an amount over the remembered events.
-/

namespace PostCall.Library

universe u

variable {ε : Type u} (time : ε → ℤ) (restarts : ε → Bool) (ttl : ℤ)

/-- The times of the restarts. -/
def restartTimes (history : List ε) : List ℤ := (history.filter restarts).map time

/-- A time is forgotten if the memory has lapsed between it and now: nothing restarted it for `ttl` after
some restart. -/
def Forgotten (history : List ε) (now t : ℤ) : Prop :=
  ∃ s ∈ restartTimes time restarts history, t < s + ttl ∧ s + ttl ≤ now ∧
    ∀ s' ∈ restartTimes time restarts history, s' ≤ s ∨ s + ttl ≤ s'

instance (history : List ε) (now t : ℤ) : Decidable (Forgotten time restarts ttl history now t) :=
  inferInstanceAs (Decidable (∃ s ∈ restartTimes time restarts history, t < s + ttl ∧ s + ttl ≤ now ∧
    ∀ s' ∈ restartTimes time restarts history, s' ≤ s ∨ s + ttl ≤ s'))

/-- The events since the last lapse. -/
def remembered (history : List ε) (now : ℤ) : List ε :=
  history.filter fun e => ¬ Forgotten time restarts ttl history now (time e)

/-- The sum of an amount over the events since the last lapse. -/
def total (amount : ε → ℤ) (history : List ε) (now : ℤ) : ℤ :=
  ((remembered time restarts ttl history now).map amount).sum

variable {time restarts ttl} {history : List ε} {e : ε} {now t s : ℤ} {amount : ε → ℤ}

lemma mem_restartTimes : s ∈ restartTimes time restarts history ↔
    ∃ e ∈ history, restarts e ∧ time e = s := by
  simp [restartTimes, and_assoc]

/-- A new entry adds its own time, if it restarts. -/
lemma restartTimes_snoc : restartTimes time restarts (history ++ [e]) =
    restartTimes time restarts history ++ if restarts e then [time e] else [] := by
  rw [restartTimes, List.filter_append, List.map_append]
  by_cases h : restarts e <;> simp [restartTimes, h]

/-- An event that restarts nothing forgets nothing. -/
lemma forgotten_snoc_of_not (idle : ¬ restarts e) :
    Forgotten time restarts ttl (history ++ [e]) now t ↔
      Forgotten time restarts ttl history now t := by
  simp only [Forgotten, restartTimes_snoc, if_neg idle, List.append_nil]

/-- A restart keeps what is remembered at its time, until it lapses itself. -/
lemma forgotten_snoc_of_lt (restart : restarts e) (fresh : now < time e + ttl)
    (after : time e ≤ now) :
    Forgotten time restarts ttl (history ++ [e]) now t ↔
      Forgotten time restarts ttl history (time e) t := by
  simp only [Forgotten, restartTimes_snoc, if_pos restart, List.mem_append, List.mem_singleton]
  constructor
  · rintro ⟨s, mem | rfl, before, lapsed, none⟩
    · refine ⟨s, mem, before, ?_, fun s' mem' => none s' (.inl mem')⟩
      have := none (time e) (.inr rfl)
      omega
    · omega
  · rintro ⟨s, mem, before, lapsed, none⟩
    refine ⟨s, .inl mem, before, lapsed.trans after, ?_⟩
    rintro s' (mem' | rfl)
    · exact none s' mem'
    · exact .inr lapsed

/-- A memory that has lapsed since its last restart has forgotten the time before. -/
lemma forgotten_snoc_of_lapsed (restart : restarts e)
    (latest : ∀ s ∈ restartTimes time restarts history, s ≤ time e) (before : t < time e + ttl)
    (lapsed : time e + ttl ≤ now) : Forgotten time restarts ttl (history ++ [e]) now t := by
  refine ⟨time e, by simp [restartTimes_snoc, restart], before, lapsed, fun s' mem' => ?_⟩
  rw [restartTimes_snoc, if_pos restart, List.mem_append, List.mem_singleton] at mem'
  rcases mem' with mem' | rfl
  · exact .inl (latest s' mem')
  · exact .inl le_rfl

/-- After the last restart, the memory lapses with that restart. -/
lemma forgotten_snoc_of_le (restart : restarts e)
    (latest : ∀ s ∈ restartTimes time restarts history, s ≤ time e) (after : time e ≤ t) :
    Forgotten time restarts ttl (history ++ [e]) now t ↔ t < time e + ttl ∧ time e + ttl ≤ now := by
  constructor
  · rintro ⟨s, mem, before, lapsed, none⟩
    rw [restartTimes_snoc, if_pos restart] at mem none
    have le : s ≤ time e := by
      rcases List.mem_append.1 mem with mem | mem
      · exact latest s mem
      · exact (List.mem_singleton.1 mem).le
    have := none (time e) (List.mem_append_right _ (List.mem_singleton.2 rfl))
    omega
  · rintro ⟨before, lapsed⟩
    exact forgotten_snoc_of_lapsed restart latest before lapsed

/-- A restart within the time to live is remembered. -/
lemma not_forgotten_of_recent (mem : e ∈ history) (restart : restarts e) (recent : now < time e + ttl) :
    ¬ Forgotten time restarts ttl history now (time e) := by
  rintro ⟨s, _, before, lapsed, none⟩
  have := none (time e) (mem_restartTimes.2 ⟨e, mem, restart, rfl⟩)
  omega

/-! ### Sums -/

/-- The sum after a new entry, which may have made others forgotten. -/
lemma total_snoc : total time restarts ttl amount (history ++ [e]) now =
    ((history.filter fun e' => ¬ Forgotten time restarts ttl (history ++ [e]) now (time e')).map
        amount).sum +
      if Forgotten time restarts ttl (history ++ [e]) now (time e) then 0 else amount e := by
  rw [total, remembered, List.filter_append, List.map_append, List.sum_append]
  by_cases h : Forgotten time restarts ttl (history ++ [e]) now (time e) <;> simp [h]

/-- An entry that restarts nothing makes nothing forgotten. -/
lemma total_snoc_of_not (idle : ¬ restarts e) :
    total time restarts ttl amount (history ++ [e]) now = total time restarts ttl amount history now +
      if Forgotten time restarts ttl history now (time e) then 0 else amount e := by
  simp only [total_snoc, forgotten_snoc_of_not idle]
  rfl

/-- While the memory of a restart lasts, the sum is what it was then and the new amount. -/
lemma total_snoc_of_lt (restart : restarts e) (after : time e ≤ now) (fresh : now < time e + ttl) :
    total time restarts ttl amount (history ++ [e]) now =
      total time restarts ttl amount history (time e) + amount e := by
  have kept : ¬ Forgotten time restarts ttl (history ++ [e]) now (time e) :=
    not_forgotten_of_recent (List.mem_append_right _ (List.mem_singleton.2 rfl)) restart fresh
  rw [total_snoc, if_neg kept]
  simp only [forgotten_snoc_of_lt restart fresh after]
  rfl

lemma total_snoc_of_lapsed (restart : restarts e) (positive : 0 < ttl)
    (latest : ∀ e' ∈ history, time e' ≤ time e) (lapsed : time e + ttl ≤ now) :
    total time restarts ttl amount (history ++ [e]) now = 0 := by
  have last : ∀ s ∈ restartTimes time restarts history, s ≤ time e := by
    intro s mem
    obtain ⟨e', there, _, rfl⟩ := mem_restartTimes.1 mem
    exact latest e' there
  have forgets : ∀ t ≤ time e, Forgotten time restarts ttl (history ++ [e]) now t := fun t le =>
    forgotten_snoc_of_lapsed restart last (by omega) lapsed
  rw [total_snoc, if_pos (forgets _ le_rfl), List.filter_eq_nil_iff.2]
  · rfl
  · intro e' mem
    simpa using forgets _ (latest e' mem)

/-! ### Filtered sums -/

section Filter

variable {l : List ε} {a : ε} {p q : ε → Bool}

/-- An amount that is counted whenever another condition counts it. -/
lemma ite_le_ite_of_imp {n : ℤ} (nonneg : 0 ≤ n) (sub : n ≠ 0 → q a → p a) :
    (if q a then n else 0) ≤ if p a then n else 0 := by
  by_cases zero : n = 0
  · simp [zero]
  · split
    case isTrue kept => rw [if_pos (sub zero kept)]
    case isFalse => split <;> omega

lemma ite_le_ite_iff {n : ℤ} (nonneg : 0 ≤ n) :
    (if p a then n else 0) ≤ (if q a then n else 0) ↔ (p a → n ≠ 0 → q a) := by
  split
  case isTrue kept =>
    split
    case isTrue kept' => exact iff_of_true le_rfl fun _ _ => kept'
    case isFalse dropped =>
      refine ⟨fun le _ ne => absurd (le_antisymm le nonneg) ne, fun h => ?_⟩
      by_contra lt
      exact dropped (h kept (by omega))
  case isFalse dropped =>
    refine iff_of_true ?_ fun kept => absurd kept dropped
    split <;> omega

/-- A sum over more of the elements is no smaller. -/
lemma sum_filter_le (nonneg : ∀ a ∈ l, 0 ≤ amount a) (sub : ∀ a ∈ l, amount a ≠ 0 → q a → p a) :
    ((l.filter q).map amount).sum ≤ ((l.filter p).map amount).sum := by
  induction l with
  | nil => exact le_rfl
  | cons a l ih =>
    simp only [List.forall_mem_cons] at nonneg sub
    rw [sum_map_filter_cons, sum_map_filter_cons]
    exact add_le_add (ite_le_ite_of_imp nonneg.1 sub.1) (ih nonneg.2 sub.2)

/-- A sum over more of the elements is no larger only if what it has more is zero. -/
lemma sum_filter_le_iff (nonneg : ∀ a ∈ l, 0 ≤ amount a)
    (sub : ∀ a ∈ l, amount a ≠ 0 → q a → p a) :
    ((l.filter p).map amount).sum ≤ ((l.filter q).map amount).sum ↔
      ∀ a ∈ l, p a → amount a ≠ 0 → q a := by
  induction l with
  | nil => simp
  | cons a l ih =>
    simp only [List.forall_mem_cons] at nonneg sub ⊢
    rw [sum_map_filter_cons, sum_map_filter_cons, ← ih nonneg.2 sub.2, ← ite_le_ite_iff nonneg.1]
    have first := ite_le_ite_of_imp nonneg.1 sub.1
    have rest := sum_filter_le nonneg.2 sub.2
    constructor
    · exact fun h => ⟨by omega, by omega⟩
    · exact fun h => add_le_add h.1 h.2

end Filter

end PostCall.Library
