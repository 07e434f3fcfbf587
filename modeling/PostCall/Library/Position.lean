import Mathlib.Algebra.BigOperators.Group.List.Basic
import Mathlib.Tactic.Common

/-!
# One position of a list

What replacing or removing one element does to a list: to its elements, to a sum over it, and to the
elements that a predicate keeps, where `keptIdx` is the position of the element among those.
-/

namespace PostCall.Library

universe u v

variable {α : Type u} {p : α → Bool} {l : List α} {n : ℕ} {a b : α}

/-- An element after a replacement is the new one, or an old one at another position. -/
lemma of_getElem?_set {m : ℕ} (h : (l.set n a)[m]? = some b) :
    (m = n ∧ b = a) ∨ (m ≠ n ∧ l[m]? = some b) := by
  rw [List.getElem?_set] at h
  split at h
  case isTrue e =>
    subst e
    split at h
    · exact .inl ⟨rfl, (Option.some.inj h).symm⟩
    · cases h
  case isFalse ne => exact .inr ⟨fun e => ne e.symm, h⟩

/-- The sum over a list of which one element is replaced. -/
lemma sum_map_set {M : Type v} [AddCommMonoid M] {f : α → M} (h : l[n]? = some a) :
    ((l.set n b).map f).sum + f a = (l.map f).sum + f b := by
  induction l generalizing n with
  | nil => cases h
  | cons c l ih =>
    cases n with
    | zero =>
      obtain rfl := Option.some.inj h
      simp only [List.set_cons_zero, List.map_cons, List.sum_cons]
      rw [add_right_comm, add_comm (f b), add_right_comm]
    | succ n =>
      simp only [List.set_cons_succ, List.map_cons, List.sum_cons]
      rw [add_assoc, ih h, add_assoc]

/-- The sum over the elements that a predicate keeps. -/
lemma sum_map_filter_cons {M : Type v} [AddCommMonoid M] {f : α → M} :
    (((a :: l).filter p).map f).sum = (if p a then f a else 0) + ((l.filter p).map f).sum := by
  rw [List.filter_cons]
  split
  case isTrue => rw [List.map_cons, List.sum_cons]
  case isFalse => rw [zero_add]

/-- A replacement that a function does not see. -/
lemma filterMap_set_of_eq {β : Type v} {f : α → Option β} (h : l[n]? = some a) (e : f b = f a) :
    (l.set n b).filterMap f = l.filterMap f := by
  induction l generalizing n with
  | nil => cases h
  | cons c l ih =>
    cases n with
    | zero =>
      obtain rfl := Option.some.inj h
      simp only [List.set_cons_zero, List.filterMap_cons, e]
    | succ n => simp only [List.set_cons_succ, List.filterMap_cons, ih h]

/-- What a function keeps of a list without duplicate keys, if it looks at one key only. -/
lemma filterMap_of_nodup_key {β : Type v} {κ : Type*} [DecidableEq κ] {key : α → κ} {k : κ} {c : β}
    (nodup : (l.map key).Nodup) :
    (l.filterMap fun a => if key a = k then some c else none) = if k ∈ l.map key then [c] else [] := by
  induction l with
  | nil => rfl
  | cons a l ih =>
    rw [List.map_cons, List.nodup_cons] at nodup
    rw [List.filterMap_cons, List.map_cons]
    by_cases e : key a = k
    · subst e
      simp [ih nodup.2, nodup.1]
    · simp [ih nodup.2, e, Ne.symm e]

/-- What a function sees of an element only once, it does not see any more without the element. -/
lemma not_mem_filterMap_eraseIdx {β : Type v} {f : α → Option β} {c : β} (h : l[n]? = some a)
    (e : f a = some c) (nodup : (l.filterMap f).Nodup) : c ∉ (l.eraseIdx n).filterMap f := by
  obtain ⟨inside, rfl⟩ := List.getElem?_eq_some_iff.1 h
  have perm := (List.getElem_cons_eraseIdx_perm inside).filterMap f
  rw [List.filterMap_cons_some e] at perm
  exact (List.nodup_cons.1 (perm.nodup_iff.2 nodup)).1

/-! ### Kept elements -/

/-- Where the `n`th element comes among those that are kept. -/
def keptIdx (p : α → Bool) (l : List α) (n : ℕ) : ℕ := (l.take n).countP p

@[simp] lemma keptIdx_zero : keptIdx p l 0 = 0 := rfl

@[simp] lemma keptIdx_cons_succ :
    keptIdx p (a :: l) (n + 1) = keptIdx p l n + if p a then 1 else 0 := List.countP_cons

/-- An operation at a position that is kept is the operation at its position among the kept ones. -/
lemma getElem?_keptIdx (h : l[n]? = some a) (keep : p a) :
    (l.filter p)[keptIdx p l n]? = some a := by
  induction l generalizing n with
  | nil => cases h
  | cons c l ih =>
    cases n with
    | zero =>
      obtain rfl := Option.some.inj h
      simp [keep]
    | succ n =>
      have later := ih (n := n) h
      cases kept : p c <;> simpa [kept] using later

/-- A kept element is taken out of the filtered list as well. -/
lemma filter_eraseIdx_of_kept (h : l[n]? = some a) (keep : p a) :
    (l.eraseIdx n).filter p = (l.filter p).eraseIdx (keptIdx p l n) := by
  induction l generalizing n with
  | nil => cases h
  | cons c l ih =>
    cases n with
    | zero =>
      obtain rfl := Option.some.inj h
      simp [keep]
    | succ n =>
      have later := ih (n := n) h
      cases kept : p c <;> simpa [kept] using later

/-- A kept element is replaced in the filtered list as well. -/
lemma filter_set_of_kept (h : l[n]? = some a) (keep : p a) (keep' : p b) :
    (l.set n b).filter p = (l.filter p).set (keptIdx p l n) b := by
  induction l generalizing n with
  | nil => cases h
  | cons c l ih =>
    cases n with
    | zero =>
      obtain rfl := Option.some.inj h
      simp [keep, keep']
    | succ n =>
      have later := ih (n := n) h
      cases kept : p c <;> simpa [kept] using later

/-- An element that is not kept leaves without notice. -/
lemma filter_eraseIdx_of_not_kept (h : l[n]? = some a) (drop : ¬ p a) :
    (l.eraseIdx n).filter p = l.filter p := by
  induction l generalizing n with
  | nil => cases h
  | cons c l ih =>
    cases n with
    | zero =>
      obtain rfl := Option.some.inj h
      simp [drop]
    | succ n =>
      have later := ih (n := n) h
      simp only [List.eraseIdx_cons_succ, List.filter_cons, later]

end PostCall.Library
