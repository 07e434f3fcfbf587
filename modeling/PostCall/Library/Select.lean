import Mathlib.Data.List.Sort
import Mathlib.Tactic.Common

/-!
# Ordered selection

`select r p n rows` is a query with a filter, an ordering and a limit: the first `n` in the order
`r` of the rows that satisfy `p`.
-/

namespace PostCall.Library

universe u v

variable {α : Type u} {κ : Type v} (r : α → α → Prop) [DecidableRel r] (p : α → Bool)

/-- The first `n` rows, in the order `r`, of those that satisfy `p`. -/
def select (n : ℕ) (rows : List α) : List α :=
  ((rows.filter p).insertionSort r).take n

variable {r p} {n : ℕ} {rows : List α}

/-- What is selected is a row that satisfies the predicate. -/
lemma mem_of_mem_select {a : α} (h : a ∈ select r p n rows) : a ∈ rows ∧ p a := by
  have h := List.mem_of_mem_take h
  rw [List.mem_insertionSort] at h
  exact List.mem_filter.1 h

/-- A limit that no row exceeds selects all of them. -/
lemma mem_select_of_le {a : α} (ha : a ∈ rows) (hp : p a) (le : (rows.filter p).length ≤ n) :
    a ∈ select r p n rows := by
  unfold select
  rw [List.take_of_length_le (by rwa [List.length_insertionSort]), List.mem_insertionSort]
  exact List.mem_filter.2 ⟨ha, hp⟩

lemma nodup_select {key : α → κ} (nodup : (rows.map key).Nodup) :
    ((select r p n rows).map key).Nodup := by
  unfold select
  rw [List.map_take]
  apply List.Nodup.sublist (List.take_sublist _ _)
  have perm : (((rows.filter p).insertionSort r).map key).Perm ((rows.filter p).map key) :=
    (List.perm_insertionSort r _).map key
  rw [perm.nodup_iff]
  exact nodup.sublist (List.filter_sublist.map key)

/-- As many are selected as there are, up to the limit. -/
lemma length_select : (select r p n rows).length = min n (rows.filter p).length := by
  rw [select, List.length_take, List.length_insertionSort]

section Order
variable [Std.Total r] [IsTrans α r]

/-- What is selected comes in the order. -/
lemma pairwise_select : (select r p n rows).Pairwise r :=
  (List.pairwise_insertionSort r _).sublist (List.take_sublist _ _)

/-- What is selected comes before what is left out. -/
lemma rel_of_not_mem_select {a b : α} (ha : a ∈ select r p n rows) (hb : b ∈ rows) (hp : p b)
    (out : b ∉ select r p n rows) : r a b := by
  have sorted := List.pairwise_insertionSort r (rows.filter p)
  have mem : b ∈ (rows.filter p).insertionSort r := by
    rw [List.mem_insertionSort]
    exact List.mem_filter.2 ⟨hb, hp⟩
  rw [← List.take_append_drop n ((rows.filter p).insertionSort r)] at sorted mem
  rcases List.mem_append.1 mem with mem | mem
  · exact absurd mem out
  · exact (List.pairwise_append.1 sorted).2.2 a ha b mem

end Order

end PostCall.Library
