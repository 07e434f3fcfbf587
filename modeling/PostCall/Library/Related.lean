import Mathlib.Data.List.Forall2
import PostCall.Library.Table

/-!
# Related tables

Two tables whose rows are related one by one, in their order. When related rows agree on the unique
columns, the two tables answer every look-up alike, refuse the same insertions, and stay related
under updates that respect the relation. A filter that passes only rows on which the relation is
equality selects the same rows of both.
-/

namespace PostCall.Library

universe u v w

section Lists

variable {α : Type u} {β : Type v} {R : α → α → Prop} {l l' : List α} {p : α → Bool}

/-- An update of both lists, which may use that its argument is a row. -/
lemma related_map {f g : α → α} (h : List.Forall₂ R l l')
    (keep : ∀ a ∈ l, ∀ b, R a b → R (f a) (g b)) : List.Forall₂ R (l.map f) (l'.map g) := by
  have own : List.Forall₂ (fun a b => a ∈ l ∧ R a b) l l' :=
    (List.forall₂_and_left _ _).2 ⟨fun _ mem => mem, h⟩
  exact List.rel_map (fun a b r => keep a r.1 b r.2) own

/-- A search for what related elements agree on finds related elements. -/
lemma related_find? (h : List.Forall₂ R l l') (same : ∀ a b, R a b → p a = p b) :
    Option.Rel R (l.find? p) (l'.find? p) := by
  induction h with
  | nil => exact .none
  | @cons a b l l' r _ ih =>
    rw [List.find?_cons, List.find?_cons, ← same a b r]
    cases p a with
    | true => exact .some r
    | false => exact ih

/-- Lists are equal where related elements are equal. -/
lemma related_filter (h : List.Forall₂ R l l') (same : ∀ a b, R a b → p a = p b)
    (equal : ∀ a b, R a b → p a → a = b) : l.filter p = l'.filter p := by
  induction h with
  | nil => rfl
  | @cons a b l l' r _ ih =>
    rw [List.filter_cons, List.filter_cons, ← same a b r, ih]
    cases passed : p a with
    | true => rw [equal a b r passed]
    | false => rfl

/-- What related rows have in common, the lists have in common. -/
lemma related_map_eq {f : α → β} (h : List.Forall₂ R l l') (same : ∀ a b, R a b → f a = f b) :
    l.map f = l'.map f := by
  have images : List.Forall₂ Eq (l.map f) (l'.map f) := List.rel_map same h
  rwa [List.forall₂_eq_eq_eq] at images

end Lists

namespace Table

variable {α : Type u} {κ : Type v} {ν : Type w} {key : α → κ} {index : α → ν}
  {R : α → α → Prop} {t t' : Table α key index}

/-- The rows are related one by one. -/
def Related (R : α → α → Prop) (t t' : Table α key index) : Prop := List.Forall₂ R t.rows t'.rows

namespace Related

lemma refl (h : ∀ a, R a a) : Related R t t := List.forall₂_same.2 fun a _ => h a

variable [DecidableEq κ]

lemma find? (h : Related R t t') (keys : ∀ a b, R a b → key a = key b) {k : κ} :
    Option.Rel R (t.find? k) (t'.find? k) :=
  related_find? h fun a b r => by rw [keys a b r]

lemma modify {k : κ} {f g : α → α} {hf hf' hg hg'} (h : Related R t t')
    (keys : ∀ a b, R a b → key a = key b) (keep : ∀ a b, R a b → R (f a) (g b)) :
    Related R (t.modify k f hf hf') (t'.modify k g hg hg') :=
  related_map h fun a _ b r => by
    rw [← keys a b r]
    split
    · exact keep a b r
    · exact r

/-- An update of one of the tables, at a row that the relation hides. -/
lemma modify_left {k : κ} {f : α → α} {hf hf'} (h : Related R t t')
    (keep : ∀ a ∈ t.rows, key a = k → ∀ b, R a b → R (f a) b) :
    Related R (t.modify k f hf hf') t' := by
  have step := related_map (f := fun a => if key a = k then f a else a) (g := id) h
    fun a mem b r => by
      split
      case isTrue e => exact keep a mem e b r
      case isFalse => exact r
  rwa [List.map_id] at step

variable [DecidableEq ν]

omit [DecidableEq κ] in
lemma findIndex? (h : Related R t t') (indices : ∀ a b, R a b → index a = index b) {i : ν} :
    Option.Rel R (t.findIndex? i) (t'.findIndex? i) :=
  related_find? h fun a b r => by rw [indices a b r]

/-- Both tables refuse the row, or neither does. -/
lemma insert? {a : α} (h : Related R t t') (keys : ∀ a b, R a b → key a = key b)
    (indices : ∀ a b, R a b → index a = index b) (self : R a a) :
    Option.Rel (Related R) (t.insert? a) (t'.insert? a) := by
  unfold Table.insert?
  by_cases fresh : key a ∉ t.rows.map key ∧ index a ∉ t.rows.map index
  · have fresh' := fresh
    rw [related_map_eq h keys, related_map_eq h indices] at fresh'
    rw [dif_pos fresh, dif_pos fresh']
    exact .some (List.rel_append h (.cons self .nil))
  · have taken := fresh
    rw [related_map_eq h keys, related_map_eq h indices] at taken
    rw [dif_neg fresh, dif_neg taken]
    exact .none

end Related

end Table

end PostCall.Library
