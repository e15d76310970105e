import Mathlib.Algebra.Order.BigOperators.Group.List
import Mathlib.Data.Int.Log
import Mathlib.Data.Rat.Floor
import Mathlib.Tactic.FieldSimp
import Mathlib.Tactic.Ring
import TradeMind.Library.HalfEven

/-!
# Arithmetic to a number of significant digits

A decimal context keeps so many significant digits of every result and rounds the rest half to
even.  A result that needs no more digits than that is exact (`roundDigits_of_lt`), so a sum of
multiples of one unit, whose absolute values together stay below the largest coefficient, is the
same in whatever order it is taken (`sumDigits_eq_sum`).
-/

set_option autoImplicit false

namespace TradeMind.Library

/-- The value to `digits` significant digits, half to even. -/
def roundDigits (digits : ℕ) (x : ℚ) : ℚ :=
  let exponent := Int.log 10 |x| + 1 - digits
  halfEven (x / 10 ^ exponent) * 10 ^ exponent

/-- The sum of some values from zero on, every partial sum rounded. -/
def sumDigits (digits : ℕ) (values : List ℚ) : ℚ :=
  values.foldl (fun total value => roundDigits digits (total + value)) 0

@[simp] theorem roundDigits_zero (digits : ℕ) : roundDigits digits 0 = 0 := by
  have hzero : halfEven (0 : ℚ) = 0 := by
    have h := @halfEven_intCast ℚ _ _ _ _ 0
    rwa [Int.cast_zero] at h
  simp [roundDigits, hzero]

/-- **A result that fits is exact**: a multiple of a power of ten by a coefficient of at most
`digits` digits. -/
theorem roundDigits_of_lt {digits : ℕ} {coefficient : ℤ} (hlt : |coefficient| < 10 ^ digits)
    (exponent : ℤ) :
    roundDigits digits (coefficient * 10 ^ exponent) = coefficient * 10 ^ exponent := by
  by_cases hzero : coefficient = 0
  · rw [hzero, Int.cast_zero, zero_mul, roundDigits_zero]
  · have hten : (0 : ℚ) < 10 ^ exponent := zpow_pos (by norm_num) exponent
    have hcoefficient : (coefficient : ℚ) ≠ 0 := Int.cast_ne_zero.mpr hzero
    have habs : |(coefficient : ℚ) * 10 ^ exponent| < 10 ^ ((digits : ℤ) + exponent) := by
      rw [abs_mul, abs_of_pos hten, zpow_add₀ (by norm_num), zpow_natCast]
      refine mul_lt_mul_of_pos_right ?_ hten
      rw [← Int.cast_abs]
      exact_mod_cast hlt
    have hpos : 0 < |(coefficient : ℚ) * 10 ^ exponent| :=
      abs_pos.mpr (mul_ne_zero hcoefficient hten.ne')
    have hlog : Int.log 10 |(coefficient : ℚ) * 10 ^ exponent| < digits + exponent :=
      (@Int.lt_zpow_iff_log_lt ℚ _ _ _ _ 10 (by norm_num) _ _ hpos).mp (by exact_mod_cast habs)
    -- the rounding position is at or below the last digit of the coefficient
    obtain ⟨shift, hshift⟩ : ∃ shift : ℕ, exponent =
        Int.log 10 |(coefficient : ℚ) * 10 ^ exponent| + 1 - digits + shift :=
      ⟨(exponent - (Int.log 10 |(coefficient : ℚ) * 10 ^ exponent| + 1 - digits)).toNat, by omega⟩
    unfold roundDigits
    dsimp only
    generalize Int.log 10 |(coefficient : ℚ) * 10 ^ exponent| + 1 - (digits : ℤ) = position
      at hshift
    have hposition : (0 : ℚ) < 10 ^ position := zpow_pos (by norm_num) position
    have hinteger : (coefficient : ℚ) * 10 ^ exponent / 10 ^ position =
        ((coefficient * 10 ^ shift : ℤ) : ℚ) := by
      rw [hshift, zpow_add₀ (by norm_num), zpow_natCast]
      push_cast
      field_simp
    rw [hinteger, halfEven_intCast, ← hinteger, div_mul_cancel₀ _ hposition.ne']

/-- Values that are multiples of one unit, and whose absolute values together stay below the
largest coefficient. -/
structure FitDigits (digits : ℕ) (unit : ℤ) (values : List ℚ) : Prop where
  multiples : ∀ value ∈ values, ∃ coefficient : ℤ, value = coefficient * 10 ^ unit
  bounded : (values.map fun value => |value|).sum < 10 ^ ((digits : ℤ) + unit)

variable {digits : ℕ} {unit : ℤ} {values values' : List ℚ}

theorem FitDigits.subperm (h : FitDigits digits unit values) (hsub : values'.Subperm values) :
    FitDigits digits unit values' := by
  refine ⟨fun value hvalue => h.multiples value (hsub.subset hvalue), ?_⟩
  obtain ⟨middle, hperm, hsublist⟩ := hsub
  refine lt_of_le_of_lt ?_ h.bounded
  rw [← (hperm.map _).sum_eq]
  refine List.Sublist.sum_le_sum (hsublist.map _) fun a ha => ?_
  obtain ⟨value, -, rfl⟩ := List.mem_map.mp ha
  exact abs_nonneg value

/-- A sum of values that fit is a multiple of their unit by a coefficient that fits. -/
theorem FitDigits.sum_eq (h : FitDigits digits unit values) :
    ∃ coefficient : ℤ, |coefficient| < 10 ^ digits ∧ values.sum = coefficient * 10 ^ unit := by
  have hunit : (0 : ℚ) < 10 ^ unit := zpow_pos (by norm_num) unit
  obtain ⟨coefficient, hcoefficient⟩ :
      ∃ coefficient : ℤ, values.sum = coefficient * 10 ^ unit := by
    have hmultiples := h.multiples
    clear h
    induction values with
    | nil => exact ⟨0, by simp⟩
    | cons value rest ih =>
      obtain ⟨tail, htail⟩ := ih fun v hv => hmultiples v (List.mem_cons_of_mem value hv)
      obtain ⟨head, hhead⟩ := hmultiples value List.mem_cons_self
      exact ⟨head + tail, by rw [List.sum_cons, hhead, htail]; push_cast; ring⟩
  have habs : |values.sum| ≤ (values.map fun value => |value|).sum := by
    clear h hcoefficient coefficient
    induction values with
    | nil => simp
    | cons value rest ih =>
      rw [List.sum_cons, List.map_cons, List.sum_cons]
      exact (abs_add_le value rest.sum).trans (add_le_add_right ih _)
  refine ⟨coefficient, ?_, hcoefficient⟩
  have hlt := habs.trans_lt h.bounded
  rw [hcoefficient, abs_mul, abs_of_pos hunit, zpow_add₀ (by norm_num), zpow_natCast,
    mul_lt_mul_iff_left₀ hunit, ← Int.cast_abs] at hlt
  exact_mod_cast hlt

/-- A sum of values that fit is exact. -/
theorem FitDigits.round_sum (h : FitDigits digits unit values) :
    roundDigits digits values.sum = values.sum := by
  obtain ⟨coefficient, hlt, hsum⟩ := h.sum_eq
  rw [hsum, roundDigits_of_lt hlt]

/-- The negation of a sum of values that fit is exact as well. -/
theorem FitDigits.round_neg_sum (h : FitDigits digits unit values) :
    roundDigits digits (-values.sum) = -values.sum := by
  obtain ⟨coefficient, hlt, hsum⟩ := h.sum_eq
  have hneg : -values.sum = ((-coefficient : ℤ) : ℚ) * 10 ^ unit := by
    rw [hsum]
    push_cast
    ring
  rw [hneg, roundDigits_of_lt (by rwa [abs_neg])]

/-- Values of the other sign fit as well. -/
theorem FitDigits.neg (h : FitDigits digits unit values) :
    FitDigits digits unit (values.map fun value => -value) := by
  refine ⟨fun value hvalue => ?_, ?_⟩
  · obtain ⟨original, horiginal, rfl⟩ := List.mem_map.mp hvalue
    obtain ⟨coefficient, rfl⟩ := h.multiples original horiginal
    exact ⟨-coefficient, by push_cast; ring⟩
  · rw [List.map_map]
    simpa [Function.comp_def] using h.bounded

/-- **Values that fit are summed exactly**, from any exact total on. -/
theorem foldl_roundDigits {total : List ℚ} (h : FitDigits digits unit (total ++ values)) :
    values.foldl (fun total value => roundDigits digits (total + value)) total.sum =
      (total ++ values).sum := by
  induction values generalizing total with
  | nil => rw [List.foldl_nil, List.append_nil]
  | cons value rest ih =>
    have hnext : FitDigits digits unit ((total ++ [value]) ++ rest) := by
      rwa [List.append_assoc]
    have hsum : (total ++ [value]).sum = total.sum + value := by simp
    have hexact : roundDigits digits (total.sum + value) = (total ++ [value]).sum := by
      rw [← hsum]
      exact (hnext.subperm (List.sublist_append_left _ _).subperm).round_sum
    rw [List.foldl_cons, hexact, ih hnext, List.append_assoc]
    rfl

/-- **A sum of values that fit** is their exact sum. -/
theorem FitDigits.sumDigits_eq (h : FitDigits digits unit values) :
    sumDigits digits values = values.sum :=
  @foldl_roundDigits digits unit values [] h

/-- **Running totals of values that fit** are the exact ones, from any exact total on. -/
theorem scanl_roundDigits {ι : Type*} (f : ι → ℚ) {rows : List ι} {total : List ℚ}
    (h : FitDigits digits unit (total ++ rows.map f)) :
    rows.scanl (fun total row => roundDigits digits (total + f row)) total.sum =
      rows.scanl (fun total row => total + f row) total.sum := by
  induction rows generalizing total with
  | nil => rfl
  | cons row rest ih =>
    have hnext : FitDigits digits unit ((total ++ [f row]) ++ rest.map f) := by
      rwa [List.append_assoc]
    have hsum : (total ++ [f row]).sum = total.sum + f row := by simp
    have hexact : roundDigits digits (total.sum + f row) = (total ++ [f row]).sum := by
      rw [← hsum]
      exact (hnext.subperm (List.sublist_append_left _ _).subperm).round_sum
    rw [List.scanl_cons, List.scanl_cons, hexact, ih hnext, hsum]

end TradeMind.Library
