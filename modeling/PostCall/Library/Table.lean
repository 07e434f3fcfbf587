import Mathlib.Algebra.BigOperators.Group.Finset.Basic
import Mathlib.Algebra.BigOperators.Group.List.Basic
import Mathlib.Data.List.Nodup
import Mathlib.Tactic.Common

/-!
# Tables

A table is a list of rows under two unique columns, as a primary key and one further unique
constraint give them; where there is only one, it is given twice. The constraints are fields, so
that a table that breaks one cannot be built: `insert?` refuses a duplicate, and `modify` takes a
function that leaves both columns alone. The lemmas say which rows an operation leaves, and what it
does to a sum over the rows.
-/

namespace PostCall.Library

universe u v w

/-- Rows with a unique `key` and a unique `index`. -/
structure Table (α : Type u) {κ : Type v} {ν : Type w} (key : α → κ) (index : α → ν) where
  rows : List α
  keyNodup : (rows.map key).Nodup
  indexNodup : (rows.map index).Nodup

namespace Table

variable {α : Type u} {κ : Type v} {ν : Type w} {key : α → κ} {index : α → ν}

/-- The table without rows. -/
def empty : Table α key index := ⟨[], by simp, by simp⟩

instance : Inhabited (Table α key index) := ⟨empty⟩

/-- An empty table has no rows. -/
@[simp] lemma rows_empty : (empty : Table α key index).rows = [] := rfl

/-- A table is its rows. -/
@[ext] lemma ext {t t' : Table α key index} (h : t.rows = t'.rows) : t = t' := by
  cases t; cases t'; cases h; rfl

/-- Rows with the same key are the same row. -/
lemma eq_of_key {t : Table α key index} {a b : α}
    (ha : a ∈ t.rows) (hb : b ∈ t.rows) (e : key a = key b) : a = b :=
  List.inj_on_of_nodup_map t.keyNodup ha hb e

/-- Rows with the same index are the same row. -/
lemma eq_of_index {t : Table α key index} {a b : α}
    (ha : a ∈ t.rows) (hb : b ∈ t.rows) (e : index a = index b) : a = b :=
  List.inj_on_of_nodup_map t.indexNodup ha hb e

section Lookup
variable [DecidableEq κ]

/-- The row with key `k`. -/
def find? (t : Table α key index) (k : κ) : Option α :=
  t.rows.find? fun a => key a = k

/-- Replace the row with key `k` by its image under `f`. -/
def modify (t : Table α key index) (k : κ) (f : α → α)
    (hk : ∀ a, key (f a) = key a) (hi : ∀ a, index (f a) = index a) : Table α key index where
  rows := t.rows.map fun a => if key a = k then f a else a
  keyNodup := by
    rw [List.map_map, show key ∘ (fun a => if key a = k then f a else a) = key from by
      funext a; by_cases h : key a = k <;> simp [h, hk]]
    exact t.keyNodup
  indexNodup := by
    rw [List.map_map, show index ∘ (fun a => if key a = k then f a else a) = index from by
      funext a; by_cases h : key a = k <;> simp [h, hi]]
    exact t.indexNodup

/-- The row with index `i`. -/
def findIndex? [DecidableEq ν] (t : Table α key index) (i : ν) : Option α :=
  t.rows.find? fun a => index a = i

/-- Append a row, unless one of its unique columns is taken. -/
def insert? [DecidableEq ν] (t : Table α key index) (a : α) : Option (Table α key index) :=
  if h : key a ∉ t.rows.map key ∧ index a ∉ t.rows.map index then
    some {
      rows := t.rows ++ [a]
      keyNodup := by
        simp only [List.map_append, List.map_cons, List.map_nil]
        exact t.keyNodup.append (by simp) (by simpa using h.1)
      indexNodup := by
        simp only [List.map_append, List.map_cons, List.map_nil]
        exact t.indexNodup.append (by simp) (by simpa using h.2) }
  else none

/-- The row that is found under a key is the one that has it. -/
lemma find?_eq_some {t : Table α key index} {k : κ} {a : α} :
    t.find? k = some a ↔ a ∈ t.rows ∧ key a = k := by
  constructor
  · intro h
    exact ⟨List.mem_of_find?_eq_some h, by simpa using List.find?_some h⟩
  · rintro ⟨ha, rfl⟩
    cases h : t.find? (key a) with
    | none => simpa using List.find?_eq_none.1 h a ha
    | some b =>
      have hb : key b = key a := by simpa using List.find?_some h
      rw [eq_of_key (List.mem_of_find?_eq_some h) ha hb]

omit [DecidableEq κ] in
/-- The row that is found under an index is the one that has it. -/
lemma findIndex?_eq_some [DecidableEq ν] {t : Table α key index} {i : ν} {a : α} :
    t.findIndex? i = some a ↔ a ∈ t.rows ∧ index a = i := by
  constructor
  · intro h
    exact ⟨List.mem_of_find?_eq_some h, by simpa using List.find?_some h⟩
  · rintro ⟨ha, rfl⟩
    cases h : t.findIndex? (index a) with
    | none => simpa using List.find?_eq_none.1 h a ha
    | some b =>
      have hb : index b = index a := by simpa using List.find?_some h
      rw [eq_of_index (List.mem_of_find?_eq_some h) ha hb]

/-- Nothing is found under a key that no row has. -/
lemma find?_eq_none {t : Table α key index} {k : κ} :
    t.find? k = none ↔ ∀ a ∈ t.rows, key a ≠ k := by
  simp [find?]

omit [DecidableEq κ] in
/-- Nothing is found under an index that no row has. -/
lemma findIndex?_eq_none [DecidableEq ν] {t : Table α key index} {i : ν} :
    t.findIndex? i = none ↔ ∀ a ∈ t.rows, index a ≠ i := by
  simp [findIndex?]

/-- The rows after a modification are the old ones, with the function applied to that of the key. -/
lemma mem_modify {t : Table α key index} {k f hk hi} {b : α} :
    b ∈ (t.modify k f hk hi).rows ↔ ∃ a ∈ t.rows, (if key a = k then f a else a) = b := by
  simp [modify]

/-- The other rows stay. -/
lemma mem_modify_of_ne {t : Table α key index} {k f hk hi} {a : α}
    (ha : a ∈ t.rows) (ne : key a ≠ k) : a ∈ (t.modify k f hk hi).rows :=
  mem_modify.2 ⟨a, ha, by simp [ne]⟩

/-- The row of the key is the modified one. -/
lemma mem_modify_self {t : Table α key index} {k f hk hi} {a : α}
    (ha : a ∈ t.rows) (e : key a = k) : f a ∈ (t.modify k f hk hi).rows :=
  mem_modify.2 ⟨a, ha, by simp [e]⟩

/-- A row found after a replacement is the image of the row with the key, or an old row. -/
lemma of_mem_modify {t : Table α key index} {k f hk hi} {a b : α}
    (ha : a ∈ t.rows) (e : key a = k) (hb : b ∈ (t.modify k f hk hi).rows) :
    b = f a ∨ (b ∈ t.rows ∧ key b ≠ k) := by
  obtain ⟨c, hc, rfl⟩ := mem_modify.1 hb
  by_cases h : key c = k
  · left
    rw [if_pos h, eq_of_key hc ha (h.trans e.symm)]
  · right
    rw [if_neg h]
    exact ⟨hc, h⟩

/-- A modification makes no row. -/
lemma find?_modify_of_none {t : Table α key index} {k f hk hi} {l : κ} (h : t.find? l = none) :
    (t.modify k f hk hi).find? l = none := by
  rw [find?_eq_none] at h ⊢
  intro b hb
  obtain ⟨a, ha, rfl⟩ := mem_modify.1 hb
  split
  · rw [hk]; exact h a ha
  · exact h a ha

/-- What is found after a modification. -/
lemma find?_modify {t : Table α key index} {k f hk hi} {l : κ} :
    (t.modify k f hk hi).find? l = if l = k then (t.find? l).map f else t.find? l := by
  split
  case isTrue e =>
    subst e
    cases h : t.find? l with
    | none => exact find?_modify_of_none h
    | some a =>
      obtain ⟨ha, e⟩ := find?_eq_some.1 h
      exact find?_eq_some.2 ⟨mem_modify_self ha e, (hk a).trans e⟩
  case isFalse ne =>
    cases h : t.find? l with
    | none => exact find?_modify_of_none h
    | some a =>
      obtain ⟨ha, e⟩ := find?_eq_some.1 h
      exact find?_eq_some.2 ⟨mem_modify_of_ne ha (by rwa [e]), e⟩

/-- Two replacements of one row are one. -/
lemma modify_modify {t : Table α key index} {k f g hk hi hk' hi'} :
    (t.modify k f hk hi).modify k g hk' hi' =
      t.modify k (g ∘ f) (fun a => (hk' (f a)).trans (hk a)) fun a => (hi' (f a)).trans (hi a) := by
  unfold modify
  congr 1
  rw [List.map_map]
  refine List.map_congr_left fun a _ => ?_
  by_cases h : key a = k <;> simp [h, hk]

/-- What a successful insertion says: both unique columns were free, and the row came last. -/
lemma insert?_eq_some [DecidableEq ν] {t t' : Table α key index} {a : α} (h : t.insert? a = some t') :
    (∀ b ∈ t.rows, key b ≠ key a) ∧ (∀ b ∈ t.rows, index b ≠ index a) ∧ t'.rows = t.rows ++ [a] := by
  unfold insert? at h
  split at h
  case isTrue fresh =>
    cases h
    simp only [List.mem_map, not_exists, not_and] at fresh
    exact ⟨fresh.1, fresh.2, rfl⟩
  case isFalse => cases h

/-- The rows after an insertion are the old ones and the new one. -/
lemma mem_insert? [DecidableEq ν] {t t' : Table α key index} {a b : α} (h : t.insert? a = some t') :
    b ∈ t'.rows ↔ b ∈ t.rows ∨ b = a := by
  simp [(insert?_eq_some h).2.2]

/-- What is found after an insertion. -/
lemma find?_insert? [DecidableEq ν] {t t' : Table α key index} {a : α} {k : κ}
    (h : t.insert? a = some t') : t'.find? k = if k = key a then some a else t.find? k := by
  obtain ⟨fresh, _, _⟩ := insert?_eq_some h
  split
  case isTrue e => exact find?_eq_some.2 ⟨(mem_insert? h).2 (.inr rfl), e.symm⟩
  case isFalse ne =>
    ext b
    rw [find?_eq_some, find?_eq_some, mem_insert? h]
    constructor
    · rintro ⟨mem | rfl, e⟩
      · exact ⟨mem, e⟩
      · exact absurd e.symm ne
    · rintro ⟨mem, e⟩
      exact ⟨.inl mem, e⟩

/-- A row with a new key and a new index can be inserted. -/
lemma insert?_of_fresh [DecidableEq ν] {t : Table α key index} {a : α}
    (hk : ∀ b ∈ t.rows, key b ≠ key a) (hi : ∀ b ∈ t.rows, index b ≠ index a) :
    ∃ t', t.insert? a = some t' := by
  unfold insert?
  rw [dif_pos (by simpa using ⟨hk, hi⟩)]
  exact ⟨_, rfl⟩

end Lookup

section Sum
variable {M : Type*} [AddCommMonoid M]

/-- The sum of `f` over all rows. -/
def sum (t : Table α key index) (f : α → M) : M := (t.rows.map f).sum

/-- The sum over no rows. -/
@[simp] lemma sum_empty {f : α → M} : (empty : Table α key index).sum f = 0 := rfl

/-- A new row adds its own value to the sum. -/
lemma sum_insert? [DecidableEq κ] [DecidableEq ν] {t t' : Table α key index} {a : α} {f : α → M}
    (h : t.insert? a = some t') : t'.sum f = t.sum f + f a := by
  simp [sum, (insert?_eq_some h).2.2]

/-- Replacing the row with a key changes a sum by what the row gains. -/
lemma sum_modify [DecidableEq κ] {t : Table α key index} {k g hk hi} {a : α} {f : α → M} {d : M}
    (ha : a ∈ t.rows) (e : key a = k) (gain : f (g a) = f a + d) :
    (t.modify k g hk hi).sum f = t.sum f + d := by
  obtain ⟨rows, nodup, unique⟩ := t
  simp only [sum, modify] at ha ⊢
  clear unique
  induction rows with
  | nil => cases ha
  | cons b rows ih =>
    simp only [List.map_cons, List.nodup_cons, List.mem_map, not_exists, not_and] at nodup
    rcases List.mem_cons.1 ha with rfl | ha
    · have rest : (rows.map fun b => if key b = k then g b else b) = rows := by
        conv_rhs => rw [← List.map_id rows]
        apply List.map_congr_left
        intro b hb
        exact if_neg fun h => nodup.1 b hb (h.trans e.symm)
      rw [List.map_cons, rest, if_pos e]
      simp only [List.map_cons, List.sum_cons, gain]
      exact add_right_comm _ _ _
    · have ne : key b ≠ k := fun h => nodup.1 a ha (e.trans h.symm)
      rw [List.map_cons, if_neg ne]
      simp only [List.map_cons, List.sum_cons, ih nodup.2 ha, add_assoc]

/-- A sum over the rows is a sum over the keys, where a key that has no row counts nothing. -/
lemma sum_eq_sum_keys [DecidableEq κ] {t : Table α key index} {f : α → M} {keys : Finset κ}
    (all : ∀ a ∈ t.rows, key a ∈ keys) : t.sum f = ∑ k ∈ keys, (t.find? k).elim 0 f := by
  have inside : (t.rows.map key).toFinset ⊆ keys := fun k mem => by
    obtain ⟨a, ha, rfl⟩ := List.mem_map.1 (List.mem_toFinset.1 mem)
    exact all a ha
  have each : ∀ a ∈ t.rows, (t.find? (key a)).elim 0 f = f a := fun a ha => by
    rw [find?_eq_some.2 ⟨ha, rfl⟩]
    rfl
  rw [← Finset.sum_subset inside, List.sum_toFinset _ t.keyNodup, List.map_map]
  · exact congrArg List.sum (List.map_congr_left fun a ha => (each a ha).symm)
  · intro k _ absent
    rw [find?_eq_none.2 fun a ha e => absent (List.mem_toFinset.2 (List.mem_map.2 ⟨a, ha, e⟩))]
    rfl

end Sum

end Table

end PostCall.Library
