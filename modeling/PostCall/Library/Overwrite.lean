import PostCall.Library.Run

/-!
# Read, then write

Transactions that read a shared value without a lock and later write what they make of what they have
read. The write takes a lock and holds it to the commit, but nothing looks at the value again. A commit
is timely when no other transaction has committed since its read. When all commits are timely the value
is what the entries make of it one after the other; for a write that adds one to a size, one commit that
is not timely is enough for the size to stay behind for good.
-/

namespace PostCall.Library

universe u v

/-- What a transaction has read, with its entry and the number of commits before the read. -/
structure Reading (σ : Type u) (ε : Type v) where
  seen : σ
  entry : ε
  version : ℕ

/-- The value, what each transaction has read, who holds the lock, and what has been committed. -/
structure Shared (σ : Type u) (ε : Type v) where
  value : σ
  readings : ℕ → Option (Reading σ ε)
  lock : Option ℕ
  committed : List ε

/-- What a transaction does. -/
inductive SharedAction (ε : Type v) where
  | read (n : ℕ) (entry : ε)
  | write (n : ℕ)
  | commit (n : ℕ)
  | rollback (n : ℕ)

namespace Shared

variable {σ : Type u} {ε : Type v}

/-- A value without transactions. -/
def start (value : σ) : Shared σ ε := ⟨value, fun _ => none, none, []⟩

/-- One action, where `write seen entry` is what the UPDATE of a transaction does to the value. A write
waits while another transaction holds the lock. -/
def step (write : σ → ε → σ → σ) (s : Shared σ ε) : SharedAction ε → Shared σ ε
  | .read n entry =>
    match s.readings n with
    | none => { s with
        readings := Function.update s.readings n (some ⟨s.value, entry, s.committed.length⟩) }
    | some _ => s
  | .write n =>
    if s.lock.isNone && (s.readings n).isSome then { s with lock := some n } else s
  | .commit n =>
    match s.readings n with
    | some r =>
      if s.lock = some n then
        ⟨write r.seen r.entry s.value, Function.update s.readings n none, none,
          s.committed ++ [r.entry]⟩
      else s
    | none => s
  | .rollback n => { s with
      readings := Function.update s.readings n none
      lock := if s.lock = some n then none else s.lock }

/-- No other transaction has committed between the read of a transaction and its commit. -/
def Timely (s : Shared σ ε) : SharedAction ε → Prop
  | .commit n => s.lock = some n → ∀ r ∈ s.readings n, r.version = s.committed.length
  | _ => True

variable {write : σ → ε → σ → σ} {s : Shared σ ε} {v : σ} {as : List (SharedAction ε)}

/-- What one action does to the value: nothing, or the write of a commit. -/
lemma step_cases (write : σ → ε → σ → σ) (s : Shared σ ε) (a : SharedAction ε) :
    (Timely s a ∧ (s.step write a).value = s.value ∧ (s.step write a).committed = s.committed) ∨
      ∃ n r, a = .commit n ∧ s.lock = some n ∧ s.readings n = some r ∧
        (s.step write a).value = write r.seen r.entry s.value ∧
        (s.step write a).committed = s.committed ++ [r.entry] := by
  cases a with
  | read n entry =>
    simp only [step]
    split <;> exact .inl ⟨trivial, rfl, rfl⟩
  | write n =>
    simp only [step]
    split <;> exact .inl ⟨trivial, rfl, rfl⟩
  | commit n =>
    simp only [step]
    split
    case h_2 none => exact .inl ⟨(fun _ _ found => nomatch none.symm.trans found), rfl, rfl⟩
    case h_1 r found =>
      split
      case isTrue lock => exact .inr ⟨n, r, rfl, lock, found, rfl, rfl⟩
      case isFalse free => exact .inl ⟨fun lock => absurd lock free, rfl, rfl⟩
  | rollback n => exact .inl ⟨trivial, rfl, rfl⟩

/-- Where a reading comes from: it was there, or it is of the value as it is. -/
lemma of_readings_step {a : SharedAction ε} {n : ℕ} {r : Reading σ ε}
    (h : (s.step write a).readings n = some r) :
    s.readings n = some r ∨ (r.seen = s.value ∧ r.version = s.committed.length) := by
  have of_update : ∀ {m x}, Function.update s.readings m x n = some r →
      s.readings n = some r ∨ x = some r := by
    intro m x h
    by_cases e : n = m
    · subst e
      rw [Function.update_self] at h
      exact .inr h
    · rw [Function.update_of_ne e] at h
      exact .inl h
  cases a with
  | read m entry =>
    simp only [step] at h
    split at h
    · refine (of_update h).imp_right fun e => ?_
      cases e
      exact ⟨rfl, rfl⟩
    · exact .inl h
  | write m =>
    simp only [step] at h
    split at h <;> exact .inl h
  | commit m =>
    simp only [step] at h
    split at h
    case h_2 => exact .inl h
    case h_1 =>
      split at h
      case isTrue => exact .inl ((of_update h).resolve_right nofun)
      case isFalse => exact .inl h
  | rollback m => exact .inl ((of_update h).resolve_right nofun)

/-! ### Timely commits -/

/-- The value is what the entries make of `v`, and a transaction whose commit would be timely has read
the value as it is. -/
structure Serial (apply : σ → ε → σ) (v : σ) (s : Shared σ ε) : Prop where
  value : s.value = s.committed.foldl apply v
  readings : ∀ n r, s.readings n = some r → r.version ≤ s.committed.length ∧
    (r.version = s.committed.length → r.seen = s.value)

/-- A timely commit writes what its entry makes of the value. -/
lemma Serial.step {apply : σ → ε → σ} (fresh : ∀ v e, write v e v = apply v e) {a : SharedAction ε}
    (h : Serial apply v s) (timely : Timely s a) : Serial apply v (s.step write a) := by
  rcases step_cases write s a with ⟨_, value, committed⟩ |
    ⟨n, r, rfl, lock, found, value, committed⟩
  · refine ⟨by rw [value, committed, h.value], fun m r' found => ?_⟩
    rw [value, committed]
    rcases of_readings_step found with old | ⟨seen, version⟩
    · exact h.readings m r' old
    · exact ⟨Nat.le_of_eq version, fun _ => seen⟩
  · have seen := (h.readings n r found).2 (timely lock r found)
    refine ⟨?_, fun m r' found' => ?_⟩
    · rw [value, committed, seen, fresh, List.foldl_append, ← h.value]
      rfl
    · -- the others are behind now
      have version : r'.version ≤ s.committed.length := by
        rcases of_readings_step found' with old | ⟨_, version⟩
        · exact (h.readings m r' old).1
        · exact Nat.le_of_eq version
      rw [committed, List.length_append, List.length_singleton]
      exact ⟨by omega, fun e => by omega⟩

/-- When all commits are timely, the entries are applied one after the other. -/
theorem serial_of_timely {apply : σ → ε → σ} (fresh : ∀ v e, write v e v = apply v e)
    (run : Run (step write) Timely (start v) as s) : s.value = s.committed.foldl apply v :=
  (run.invariant (I := Serial apply v) ⟨rfl, fun _ _ h => by cases h⟩
    fun _ _ h timely => h.step fresh timely).value

/-! ### Commits that are not timely -/

section

variable {size : σ → ℕ}

/-- The size counts the commits, for the value and for what the transactions have read. -/
structure Counted (size : σ → ℕ) (v : σ) (s : Shared σ ε) : Prop where
  value : size s.value = size v + s.committed.length
  readings : ∀ n r, s.readings n = some r →
    size r.seen = size v + r.version ∧ r.version ≤ s.committed.length

/-- The size is behind the commits, and would be after the commit of any transaction. -/
structure Behind (size : σ → ℕ) (v : σ) (s : Shared σ ε) : Prop where
  value : size s.value < size v + s.committed.length
  readings : ∀ n r, s.readings n = some r → size r.seen < size v + s.committed.length

variable (adds : ∀ v e w, size (write v e w) = size v + 1) {a : SharedAction ε}
include adds

lemma Behind.step (h : Behind size v s) : Behind size v (s.step write a) := by
  have less : ∀ m r, (s.step write a).readings m = some r →
      size r.seen < size v + s.committed.length := by
    intro m r found
    rcases of_readings_step found with old | ⟨seen, _⟩
    · exact h.readings m r old
    · rw [seen]
      exact h.value
  rcases step_cases write s a with ⟨_, value, committed⟩ |
    ⟨n, r, rfl, lock, found, value, committed⟩
  · refine ⟨?_, ?_⟩
    · rw [value, committed]
      exact h.value
    · rwa [committed]
  · have read := h.readings n r found
    refine ⟨?_, fun m r' found' => ?_⟩
    · rw [value, committed, adds, List.length_append, List.length_singleton]
      omega
    · have := less m r' found'
      rw [committed, List.length_append, List.length_singleton]
      omega

section

variable (h : Counted size v s)
include h

omit adds in
/-- What a transaction has read has the size of the commits before it. -/
lemma Counted.of_readings_step {m : ℕ} {r : Reading σ ε}
    (found : (s.step write a).readings m = some r) :
    size r.seen = size v + r.version ∧ r.version ≤ s.committed.length := by
  rcases Shared.of_readings_step found with old | ⟨seen, version⟩
  · exact h.readings m r old
  · rw [seen, version]
    exact ⟨h.value, Nat.le_refl _⟩

/-- A timely commit keeps the size at the number of commits. -/
lemma Counted.step (timely : Timely s a) : Counted size v (s.step write a) := by
  rcases step_cases write s a with ⟨_, value, committed⟩ |
    ⟨n, r, rfl, lock, found, value, committed⟩
  · refine ⟨?_, fun m r found => ?_⟩
    · rw [value, committed]
      exact h.value
    · rw [committed]
      exact h.of_readings_step found
  · have read := h.readings n r found
    have version := timely lock r found
    refine ⟨?_, fun m r' found' => ?_⟩
    · rw [value, committed, adds, List.length_append, List.length_singleton]
      omega
    · have := h.of_readings_step found'
      rw [committed, List.length_append, List.length_singleton]
      omega

/-- A commit that is not timely writes over what others have committed since its read. -/
lemma Counted.behind (late : ¬ Timely s a) : Behind size v (s.step write a) := by
  rcases step_cases write s a with ⟨timely, _⟩ | ⟨n, r, rfl, lock, found, value, committed⟩
  · exact absurd timely late
  have read := h.readings n r found
  have version : r.version ≠ s.committed.length := fun e => late fun _ r' found' => by
    cases found.symm.trans found'
    exact e
  refine ⟨?_, fun m r' found' => ?_⟩
  · rw [value, committed, adds, List.length_append, List.length_singleton]
    omega
  · have := h.of_readings_step found'
    rw [committed, List.length_append, List.length_singleton]
    omega

end

/-- The size counts the commits exactly when all of them are timely. -/
theorem size_eq_iff_timely (run : Run (step write) anyStep (start v) as s) :
    size s.value = size v + s.committed.length ↔ Run (step write) Timely (start v) as s := by
  have init : Counted size v (start v : Shared σ ε) := ⟨rfl, fun _ _ h => by cases h⟩
  constructor
  · intro counts
    have either : Run (step write) Timely (start v) as s ∧ Counted size v s ∨ Behind size v s := by
      clear counts
      induction run with
      | nil => exact .inl ⟨.nil, init⟩
      | @snoc as s a _ _ ih =>
        rcases ih with ⟨earlier, counted⟩ | behind
        · by_cases timely : Timely s a
          · exact .inl ⟨.snoc earlier timely, counted.step adds timely⟩
          · exact .inr (counted.behind adds timely)
        · exact .inr (behind.step adds)
    rcases either with ⟨timely, _⟩ | behind
    · exact timely
    · exact absurd counts (Nat.ne_of_lt behind.value)
  · intro timely
    exact (timely.invariant init fun _ _ h timely => h.step adds timely).value

end

end Shared

end PostCall.Library
