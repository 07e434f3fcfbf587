import Mathlib.Algebra.BigOperators.Group.Finset.Piecewise
import PostCall.Machine.Ledger

/-!
# Totals

What a customer's rows have counted together, over the windows that a predicate keeps. A total is
determined by the counters of all rows, so that what an operation does to the counters says what it
does to every total.
-/

namespace PostCall.Machine
open PostCall.Library PostCall.Python PostCall.Model

variable {cfg : Settings} {t t' : UsageTable} {customer c : UUID} {windowStart now : Time}
  {within : Time → Prop} [DecidablePred within] {d : Counter → ℤ} {f : Counter}

/-- The sum of a counter over the rows of a customer in these windows. -/
def total (t : UsageTable) (customer : UUID) (within : Time → Prop) [DecidablePred within]
    (f : Counter) : ℤ :=
  t.sum fun u => if u.customerId = customer ∧ within u.windowStart then f.of u else 0

/-- How many rows of a customer an operation for `c` raises: one if it is for the customer, and one if
the customer is the platform. -/
def share (customer c : UUID) : ℤ :=
  (if GLOBAL_RATE_LIMIT_ID = customer then 1 else 0) + if c = customer then 1 else 0

lemma share_nonneg : 0 ≤ share customer c := by
  unfold share
  split <;> split <;> omega

/-- A total, read off the counters. -/
lemma total_eq_sum_counter {keys : Finset (UUID × Time)} (all : ∀ u ∈ t.rows, u.key ∈ keys) :
    total t customer within f =
      ∑ k ∈ keys, if k.1 = customer ∧ within k.2 then counter t k f else 0 := by
  rw [total, Table.sum_eq_sum_keys all]
  refine Finset.sum_congr rfl fun k _ => ?_
  unfold counter
  cases found : t.find? k with
  | none => simp
  | some u =>
    obtain rfl := (Table.find?_eq_some.1 found).2
    rfl

/-- The total over one window is the counter of its row. -/
lemma total_window : total t customer (· = windowStart) f = counter t (customer, windowStart) f := by
  let keys : Finset (UUID × Time) := insert (customer, windowStart) (t.rows.map (·.key)).toFinset
  have all : ∀ u ∈ t.rows, u.key ∈ keys := fun u mem =>
    Finset.mem_insert_of_mem (List.mem_toFinset.2 (List.mem_map_of_mem mem))
  have each : ∀ k : UUID × Time, (if k.1 = customer ∧ k.2 = windowStart then counter t k f else 0) =
      if k = (customer, windowStart) then counter t k f else 0 := by
    rintro ⟨c, w⟩
    simp only [Prod.mk.injEq]
  rw [total_eq_sum_counter all, Finset.sum_congr rfl fun k _ => each k, Finset.sum_ite_eq',
    if_pos (Finset.mem_insert_self _ _)]

/-- One key counts more. -/
lemma sum_raised {κ : Type*} [DecidableEq κ] {keys : Finset κ} {p : κ → Prop} [DecidablePred p]
    {g : κ → ℤ} {row : κ} {gain : ℤ} (mem : row ∈ keys) :
    (∑ k ∈ keys, if p k then g k + (if k = row then gain else 0) else 0) =
      (∑ k ∈ keys, if p k then g k else 0) + if p row then gain else 0 := by
  have each : ∀ k, (if p k then g k + (if k = row then gain else 0) else 0) =
      (if p k then g k else 0) + if k = row then if p row then gain else 0 else 0 := by
    intro k
    by_cases here : k = row
    · subst here
      by_cases counts : p k <;> simp [counts]
    · simp [here]
  rw [Finset.sum_congr rfl fun k _ => each k, Finset.sum_add_distrib, Finset.sum_ite_eq',
    if_pos mem]

/-- The rows of a customer in these windows are raised as the counters are. -/
lemma total_of_counter (raised : ∀ k, counter t' k f = counter t k f +
      (if k = (GLOBAL_RATE_LIMIT_ID, windowStart) then d f else 0) +
      (if k = (c, windowStart) then d f else 0)) :
    total t' customer within f =
      total t customer within f + if within windowStart then share customer c * d f else 0 := by
  let platform : UUID × Time := (GLOBAL_RATE_LIMIT_ID, windowStart)
  let own : UUID × Time := (c, windowStart)
  let keys : Finset (UUID × Time) :=
    (t.rows.map (·.key)).toFinset ∪ (t'.rows.map (·.key)).toFinset ∪ {platform, own}
  have old : ∀ u ∈ t.rows, u.key ∈ keys := fun u mem => by
    simp only [keys, Finset.mem_union, List.mem_toFinset]
    exact .inl (.inl (List.mem_map_of_mem mem))
  have new : ∀ u ∈ t'.rows, u.key ∈ keys := fun u mem => by
    simp only [keys, Finset.mem_union, List.mem_toFinset]
    exact .inl (.inr (List.mem_map_of_mem mem))
  have ofPlatform : platform ∈ keys := by simp [keys]
  have ofOwn : own ∈ keys := by simp [keys]
  rw [total_eq_sum_counter new, total_eq_sum_counter old, Finset.sum_congr rfl fun k _ => by
    rw [raised k], sum_raised ofOwn, sum_raised ofPlatform, add_assoc]
  congr 1
  by_cases inside : within windowStart
  · simp only [platform, own, inside, and_true, if_true, share, add_mul, ite_mul, one_mul, zero_mul]
  · simp only [platform, own, inside, and_false, if_false, add_zero]

lemma total_of_same (same : ∀ k, counter t' k f = counter t k f) :
    total t' customer within f = total t customer within f := by
  have raised := @total_of_counter t t' customer customer 0 within _ (fun _ => 0) f fun k => by
    simp [same k]
  simpa using raised

end PostCall.Machine
