import Mathlib.Algebra.BigOperators.Group.List.Basic
import Mathlib.Algebra.Order.Field.Basic
import Mathlib.Algebra.Order.BigOperators.Group.List

/-!
# Weighted means of a list

The mean of the values of a list under nonnegative weights, as the two sums it is the quotient
of.  Its value lies between any bounds of the values that have weight (`mean_mem`); a value
without weight changes neither sum.
-/

set_option autoImplicit false

namespace TradeMind.Library

universe u v

variable {ι : Type v} {α : Type u} [Field α] [LinearOrder α]

/-- The sum of the weights. -/
def weightTotal (weight : ι → α) (l : List ι) : α := (l.map weight).sum

/-- The sum of the values, each times its weight. -/
def weightedTotal (weight value : ι → α) (l : List ι) : α :=
  (l.map fun i => value i * weight i).sum

variable {weight value value' : ι → α} {l l' : List ι} {low high : α}

omit [LinearOrder α] in
/-- An element in front adds its weight. -/
@[simp] theorem weightTotal_cons (i : ι) :
    weightTotal weight (i :: l) = weight i + weightTotal weight l := by
  simp [weightTotal]

omit [LinearOrder α] in
/-- An element in front adds its weighted value. -/
@[simp] theorem weightedTotal_cons (i : ι) :
    weightedTotal weight value (i :: l) = value i * weight i + weightedTotal weight value l := by
  simp [weightedTotal]

omit [LinearOrder α] in
/-- The weights of two lists. -/
@[simp] theorem weightTotal_append :
    weightTotal weight (l ++ l') = weightTotal weight l + weightTotal weight l' := by
  simp [weightTotal]

omit [LinearOrder α] in
/-- The weighted values of two lists. -/
@[simp] theorem weightedTotal_append : weightedTotal weight value (l ++ l') =
    weightedTotal weight value l + weightedTotal weight value l' := by
  simp [weightedTotal]

omit [LinearOrder α] in
/-- The order does not change the sum of the weights. -/
theorem weightTotal_perm (h : l.Perm l') : weightTotal weight l = weightTotal weight l' :=
  (h.map _).sum_eq

omit [LinearOrder α] in
/-- The order does not change the weighted sum. -/
theorem weightedTotal_perm (h : l.Perm l') :
    weightedTotal weight value l = weightedTotal weight value l' :=
  (h.map _).sum_eq

omit [LinearOrder α] in
/-- The weighted sum of a constant is the constant times the sum of the weights. -/
theorem weightedTotal_const (c : α) :
    weightedTotal weight (fun _ => c) l = c * weightTotal weight l := by
  induction l with
  | nil => simp [weightTotal, weightedTotal]
  | cons i rest ih => rw [weightTotal_cons, weightedTotal_cons, ih, mul_add]

variable [IsStrictOrderedRing α]

theorem weightTotal_nonneg (h : ∀ i ∈ l, 0 ≤ weight i) : 0 ≤ weightTotal weight l :=
  List.sum_nonneg (by simpa using h)

/-- The sum of nonnegative weights is zero where every weight is. -/
theorem weightTotal_eq_zero_iff (h : ∀ i ∈ l, 0 ≤ weight i) :
    weightTotal weight l = 0 ↔ ∀ i ∈ l, weight i = 0 := by
  induction l with
  | nil => simp [weightTotal]
  | cons i rest ih =>
    have hi : 0 ≤ weight i := h i (by simp)
    have hrest : ∀ j ∈ rest, 0 ≤ weight j := fun j hj => h j (by simp [hj])
    rw [weightTotal_cons, add_eq_zero_iff_of_nonneg hi (weightTotal_nonneg hrest), ih hrest]
    simp

/-- The weighted sum grows with the values that have weight. -/
theorem weightedTotal_mono (h : ∀ i ∈ l, 0 ≤ weight i)
    (hle : ∀ i ∈ l, 0 < weight i → value i ≤ value' i) :
    weightedTotal weight value l ≤ weightedTotal weight value' l := by
  apply List.sum_le_sum
  intro i hi
  rcases (h i hi).eq_or_lt with hzero | hpos
  · simp [← hzero]
  · exact mul_le_mul_of_nonneg_right (hle i hi hpos) hpos.le

/-- **A weighted mean lies between the bounds of the values that have weight.** -/
theorem mean_mem (h : ∀ i ∈ l, 0 ≤ weight i) (hpos : 0 < weightTotal weight l)
    (hlow : ∀ i ∈ l, 0 < weight i → low ≤ value i)
    (hhigh : ∀ i ∈ l, 0 < weight i → value i ≤ high) :
    low ≤ weightedTotal weight value l / weightTotal weight l ∧
      weightedTotal weight value l / weightTotal weight l ≤ high := by
  constructor
  · rw [le_div_iff₀ hpos, ← weightedTotal_const]
    exact weightedTotal_mono h hlow
  · rw [div_le_iff₀ hpos, ← weightedTotal_const]
    exact weightedTotal_mono h hhigh

end TradeMind.Library
