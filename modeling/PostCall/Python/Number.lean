import Mathlib.Algebra.Order.Round
import Mathlib.Data.Int.Log
import Mathlib.Data.Rat.Floor
import Mathlib.Tactic.Common
import Mathlib.Tactic.FieldSimp
import Mathlib.Tactic.Linarith
import Mathlib.Tactic.Positivity
import Mathlib.Tactic.Ring

/-!
# Numbers

The numbers of Python that an `int` and a finite `float` are, with their sum and `int()`. A sum with
a float in it is rounded to a double: the nearest number of 53 significant bits, and of two as near
the one whose last bit is zero. The exponent has no bounds here. Below the least one a sum of
doubles is exact, and a sum above the largest one is infinite in Python, which no column of type
`Integer` takes either.
-/

namespace PostCall.Python

/-- The nearest whole number, and of two as near the even one. -/
def roundHalfEven (q : ℚ) : ℤ :=
  let n := ⌊q⌋
  if q - n < 1 / 2 ∨ q - n = 1 / 2 ∧ n % 2 = 0 then n else n + 1

/-- The distance of the doubles of the size of a number. -/
def ulp (q : ℚ) : ℚ := 2 ^ (Int.log 2 |q| - 52)

/-- The double that is nearest to a number. -/
def toDouble (q : ℚ) : ℚ := roundHalfEven (q / ulp q) * ulp q

/-- A number that is not a whole one is rounded to one of its two neighbours. -/
lemma floor_le_roundHalfEven {q : ℚ} : ⌊q⌋ ≤ roundHalfEven q := by
  unfold roundHalfEven
  dsimp only
  split
  · exact le_rfl
  · exact Int.le_add_one le_rfl

/-- A whole number is rounded to itself. -/
@[simp] lemma roundHalfEven_intCast {n : ℤ} : roundHalfEven n = n := by
  simp [roundHalfEven]

lemma ulp_pos {q : ℚ} : 0 < ulp q := zpow_pos two_pos _

/-- A number is at least `2 ^ 52` times the distance of the doubles of its size. -/
lemma two_pow_mul_ulp_le {q : ℚ} (h : q ≠ 0) : 2 ^ 52 * ulp q ≤ |q| := by
  calc (2 : ℚ) ^ 52 * ulp q = 2 ^ Int.log 2 |q| := by
        rw [ulp, zpow_sub₀ two_ne_zero]
        field_simp
    _ ≤ |q| := by exact_mod_cast Int.zpow_log_le_self one_lt_two (abs_pos.2 h)

/-- A whole number below `2 ^ 53` is a double. -/
lemma toDouble_intCast {n : ℤ} (h : |n| < 2 ^ 53) : toDouble n = n := by
  rcases eq_or_ne n 0 with rfl | ne
  · have zero : roundHalfEven 0 = 0 := by exact_mod_cast roundHalfEven_intCast (n := 0)
    simp [toDouble, zero]
  have pos : (0 : ℚ) < |(n : ℚ)| := abs_pos.2 (Int.cast_ne_zero.2 ne)
  have size : Int.log 2 |(n : ℚ)| < 53 := by
    refine (Int.lt_zpow_iff_log_lt one_lt_two pos).1 ?_
    exact_mod_cast h
  obtain ⟨k, e⟩ : ∃ k : ℕ, ulp n = 2 ^ (-(k : ℤ)) := by
    refine ⟨(52 - Int.log 2 |(n : ℚ)|).toNat, ?_⟩
    rw [ulp, Int.toNat_of_nonneg (by omega), neg_sub]
  have scaled : (n : ℚ) / ulp n = ((n * 2 ^ k : ℤ) : ℚ) := by
    rw [e, zpow_neg, zpow_natCast, div_inv_eq_mul]
    push_cast
    rfl
  rw [toDouble, scaled, roundHalfEven_intCast, ← scaled, div_mul_cancel₀ _ ulp_pos.ne']

/-- A power of two is a double, so that rounding does not go below it. -/
lemma zpow_le_toDouble {k : ℤ} {q : ℚ} (h : 2 ^ k ≤ q) : 2 ^ k ≤ toDouble q := by
  have pos : 0 < q := lt_of_lt_of_le (zpow_pos two_pos k) h
  have size : (2 : ℚ) ^ k ≤ 2 ^ Int.log 2 |q| := by
    rw [abs_of_pos pos]
    exact zpow_le_zpow_right₀ one_le_two
      ((Int.zpow_le_iff_le_log one_lt_two pos).1 (by exact_mod_cast h))
  have bits : (2 : ℤ) ^ 52 ≤ ⌊q / ulp q⌋ := by
    refine Int.le_floor.2 ((le_div_iff₀ ulp_pos).2 ?_)
    have := two_pow_mul_ulp_le pos.ne'
    rw [abs_of_pos pos] at this
    exact_mod_cast this
  have mantissa : (2 : ℚ) ^ 52 ≤ roundHalfEven (q / ulp q) := by
    exact_mod_cast bits.trans floor_le_roundHalfEven
  calc (2 : ℚ) ^ k ≤ 2 ^ Int.log 2 |q| := size
    _ = 2 ^ 52 * ulp q := by
        rw [ulp, zpow_sub₀ two_ne_zero]
        field_simp
    _ ≤ toDouble q := mul_le_mul_of_nonneg_right mantissa ulp_pos.le

/-- A whole number is a double, or rounding leaves it large. -/
lemma toDouble_of_lt {n : ℤ} (h : -2 ^ 53 < n) :
    (toDouble n = n ∧ n < 2 ^ 53) ∨ 2 ^ 52 ≤ toDouble n := by
  rcases lt_or_ge n (2 ^ 53) with small | large
  · exact .inl ⟨toDouble_intCast (abs_lt.2 ⟨h, small⟩), small⟩
  · have size : (2 : ℚ) ^ (52 : ℤ) ≤ n := by exact_mod_cast le_trans (by norm_num) large
    exact .inr (by exact_mod_cast zpow_le_toDouble size)

/-- Rounding keeps the sign. -/
lemma toDouble_nonneg {q : ℚ} (h : 0 ≤ q) : 0 ≤ toDouble q := by
  have floor : 0 ≤ ⌊q / ulp q⌋ := Int.floor_nonneg.2 (div_nonneg h ulp_pos.le)
  exact mul_nonneg (by exact_mod_cast floor.trans floor_le_roundHalfEven) ulp_pos.le

/-- A number: an `int`, or a finite `float` by its value. -/
inductive Number where
  | int (n : ℤ)
  | float (q : ℚ)
  deriving DecidableEq, Repr

namespace Number

/-- The value of a number. -/
def val : Number → ℚ
  | int n => n
  | float q => q

/-- The float that a number is made before it is added to a float. -/
def toFloat : Number → ℚ
  | int n => toDouble n
  | float q => q

/-- `a + b`. -/
def add : Number → Number → Number
  | int m, int n => int (m + n)
  | a, b => float (toDouble (a.toFloat + b.toFloat))

/-- `int(x)`, which goes toward zero. -/
def trunc : Number → ℤ
  | int n => n
  | float q => if q < 0 then ⌈q⌉ else ⌊q⌋

/-- A number of which `int()` loses nothing. -/
def Whole (x : Number) : Prop := (x.trunc : ℚ) = x.val

instance (x : Number) : Decidable x.Whole := inferInstanceAs (Decidable (_ = _))

variable {a x : Number} {n : ℤ}

@[simp] lemma add_int {m : ℤ} : (int m).add (int n) = int (m + n) := rfl

/-- An `int` is not changed by `int()`. -/
@[simp] lemma trunc_int : (int n).trunc = n := rfl

/-- Its value is itself. -/
@[simp] lemma val_int : (int n).val = n := rfl

/-- An `int` is whole. -/
@[simp] lemma whole_int : (int n).Whole := rfl

/-- A `float` whose value is a whole number is whole. -/
lemma whole_float {q : ℚ} (h : q = n) : (float q).Whole ∧ (float q).trunc = n := by
  have trunc : (float q).trunc = n := by
    subst h
    simp [Number.trunc]
  exact ⟨by rw [Whole, trunc]; exact h.symm, trunc⟩

/-- Truncation does not go below a whole number that is not negative. -/
lemma le_trunc {k : ℕ} (h : (k : ℚ) ≤ x.val) : (k : ℤ) ≤ x.trunc := by
  cases x with
  | int n =>
    rw [val_int] at h
    rw [trunc_int]
    exact_mod_cast h
  | float q =>
    have nonneg : ¬ q < 0 := not_lt.2 (le_trans k.cast_nonneg h)
    simp only [trunc, nonneg, if_false]
    exact Int.le_floor.2 (by exact_mod_cast h)

/-- A number that is not negative is still none when it is truncated. -/
lemma trunc_nonneg (h : 0 ≤ x.val) : 0 ≤ x.trunc := by
  exact_mod_cast le_trunc (k := 0) (by exact_mod_cast h)

/-- A whole number below `2 ^ 53` is a float of the same value. -/
lemma toFloat_of_whole (whole : x.Whole) (h : |x.val| < 2 ^ 53) : x.toFloat = x.val := by
  cases x with
  | int n =>
    rw [val_int] at h
    exact toDouble_intCast (by exact_mod_cast h)
  | float q => rfl

/-- A number that is not small is a float that is not small. -/
lemma le_toFloat (h : 2 ^ 53 ≤ x.val) : 2 ^ 53 ≤ x.toFloat := by
  cases x with
  | int n =>
    rw [val_int] at h
    exact_mod_cast zpow_le_toDouble (k := 53) (by exact_mod_cast h)
  | float q => exact h

/-- A number that is not negative is a float that is not negative. -/
lemma toFloat_nonneg (h : 0 ≤ x.val) : 0 ≤ x.toFloat := by
  cases x with
  | int n => exact toDouble_nonneg h
  | float q => exact h

/-- The sum with a float in it is a float. -/
lemma add_eq_float : (∃ m n, a = int m ∧ x = int n) ∨
    a.add x = float (toDouble (a.toFloat + x.toFloat)) := by
  cases a with
  | int m =>
    cases x with
    | int n => exact .inl ⟨m, n, rfl, rfl⟩
    | float q => exact .inr rfl
  | float q => exact .inr (by cases x <;> rfl)

/-- A sum that has left the whole numbers that a double has exactly does not come back. -/
lemma le_add (h : 2 ^ 52 ≤ a.val) (nonneg : 0 ≤ x.val) : 2 ^ 52 ≤ (a.add x).val := by
  rcases add_eq_float (a := a) (x := x) with ⟨m, n, rfl, rfl⟩ | e
  · rw [add_int, val_int, Int.cast_add]
    exact le_add_of_le_of_nonneg h nonneg
  · have operand : 2 ^ 52 ≤ a.toFloat := by
      cases a with
      | int n =>
        rw [val_int] at h
        exact_mod_cast zpow_le_toDouble (k := 52) (by exact_mod_cast h)
      | float q => exact h
    rw [e]
    exact_mod_cast zpow_le_toDouble (k := 52)
      (by exact_mod_cast le_add_of_le_of_nonneg operand (toFloat_nonneg nonneg))

/-- A whole number is added exactly to a small one, unless the sum is large. -/
lemma add_whole (ha : a.Whole) (low : -2 ^ 52 < a.val) (high : a.val < 2 ^ 53) (hx : x.Whole)
    (nonneg : 0 ≤ x.val) :
    ((a.add x).Whole ∧ (a.add x).trunc = a.trunc + x.trunc ∧ (a.add x).val < 2 ^ 53) ∨
      2 ^ 52 ≤ (a.add x).val := by
  rcases add_eq_float (a := a) (x := x) with ⟨m, n, rfl, rfl⟩ | e
  · rcases lt_or_ge (((int m).add (int n)).val) (2 ^ 53) with small | large
    · exact .inl ⟨rfl, rfl, small⟩
    · exact .inr (le_trans (by norm_num) large)
  have first : a.toFloat = a.val := toFloat_of_whole ha (abs_lt.2 ⟨by linarith, high⟩)
  rw [e]
  rcases lt_or_ge x.val (2 ^ 53) with small | large
  · have second : x.toFloat = x.val := toFloat_of_whole hx (abs_lt.2 ⟨by linarith, small⟩)
    have sum : a.toFloat + x.toFloat = ((a.trunc + x.trunc : ℤ) : ℚ) := by
      rw [first, second, ← ha, ← hx, Int.cast_add]
    have bound : -2 ^ 53 < a.trunc + x.trunc := by
      have : (-2 ^ 53 : ℚ) < ((a.trunc + x.trunc : ℤ) : ℚ) := by
        rw [← sum, first, second]
        linarith
      exact_mod_cast this
    rw [sum]
    rcases toDouble_of_lt bound with ⟨rounded, small⟩ | large
    · obtain ⟨whole, trunc⟩ := whole_float rounded
      refine .inl ⟨whole, trunc, ?_⟩
      change toDouble _ < _
      rw [rounded]
      exact_mod_cast small
    · exact .inr large
  · refine .inr ?_
    have far : (2 : ℚ) ^ (52 : ℤ) ≤ a.toFloat + x.toFloat := by
      have := le_toFloat large
      rw [first]
      norm_num at low this ⊢
      linarith
    exact_mod_cast zpow_le_toDouble far

/-- The numbers added to another one after the other. -/
def sum (a : Number) (xs : List Number) : Number := xs.foldl add a

@[simp] lemma sum_nil : a.sum [] = a := rfl

@[simp] lemma sum_cons {xs : List Number} : a.sum (x :: xs) = (a.add x).sum xs := rfl

/-- A large sum stays large. -/
lemma le_sum {xs : List Number} (h : 2 ^ 52 ≤ a.val) (nonneg : ∀ x ∈ xs, 0 ≤ x.val) :
    2 ^ 52 ≤ (a.sum xs).val := by
  induction xs generalizing a with
  | nil => exact h
  | cons x xs ih =>
    exact ih (le_add h (nonneg x (by simp))) fun y mem => nonneg y (List.mem_cons_of_mem x mem)

/-- Whole numbers are added exactly when their sum is small. -/
lemma trunc_sum {xs : List Number} (ha : a.Whole) (low : -2 ^ 52 < a.val) (high : a.val < 2 ^ 53)
    (whole : ∀ x ∈ xs, x.Whole ∧ 0 ≤ x.val) (small : (a.sum xs).trunc < 2 ^ 52) :
    (a.sum xs).trunc = a.trunc + (xs.map trunc).sum := by
  induction xs generalizing a with
  | nil => simp
  | cons x xs ih =>
    obtain ⟨hx, nonneg⟩ := whole x (by simp)
    have rest : ∀ y ∈ xs, y.Whole ∧ 0 ≤ y.val := fun y mem => whole y (List.mem_cons_of_mem x mem)
    rcases add_whole ha low high hx nonneg with ⟨whole, trunc, high'⟩ | large
    · have low' : -2 ^ 52 < (a.add x).val := by
        have grown : a.trunc ≤ (a.add x).trunc := by
          rw [trunc]
          exact le_add_of_nonneg_right (trunc_nonneg nonneg)
        rw [← whole]
        rw [← ha] at low
        exact lt_of_lt_of_le low (by exact_mod_cast grown)
      rw [sum_cons, ih whole low' high' rest small, trunc, List.map_cons, List.sum_cons, add_assoc]
    · have far := le_trunc (k := 2 ^ 52)
        (by exact_mod_cast le_sum large fun y mem => (rest y mem).2)
      rw [sum_cons] at small
      exact absurd small (by exact_mod_cast not_lt.2 far)

end Number

end PostCall.Python
