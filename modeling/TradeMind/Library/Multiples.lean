import Mathlib.Algebra.Order.Ring.Int
import Mathlib.Data.Int.Interval
import Mathlib.Data.List.Sort

/-!
# The multiples of a step

`multiples step a b` lists the multiples of a step from `a` on and before `b`, ascending.  There
are at most one more than steps between `a` and `b` (`length_multiples_le`).  The first `n`
elements of an ascending list are its elements up to the last of them (`mem_take_of_ascending`),
so the next page of multiples starts one step after it.  Of the instants a whole number of steps
from one another every step holds exactly one (`eq_of_dvd_sub`).
-/

set_option autoImplicit false

namespace TradeMind.Library

variable {step a b t : ℤ}

/-- The number of the first multiple from `x` on. -/
def firstIndex (step x : ℤ) : ℤ := -(-x / step)

/-- The multiples of `step` from `a` on and before `b`. -/
def multiples (step a b : ℤ) : List ℤ :=
  (List.range (firstIndex step b - firstIndex step a).toNat).map fun i : ℕ =>
    (firstIndex step a + i) * step

/-- The multiples from `x` on are those from the first index on. -/
theorem firstIndex_le_iff (hstep : 0 < step) (x i : ℤ) :
    firstIndex step x ≤ i ↔ x ≤ i * step := by
  rw [firstIndex, neg_le, Int.le_ediv_iff_mul_le hstep, neg_mul, neg_le_neg_iff]

/-- The multiples before `x` are those before the first index. -/
theorem lt_firstIndex_iff (hstep : 0 < step) (x i : ℤ) :
    i < firstIndex step x ↔ i * step < x := by
  rw [← not_le, firstIndex_le_iff hstep, not_le]

/-- **Every multiple of the range is listed, and nothing else.** -/
theorem mem_multiples (hstep : 0 < step) :
    t ∈ multiples step a b ↔ step ∣ t ∧ a ≤ t ∧ t < b := by
  simp only [multiples, List.mem_map, List.mem_range]
  constructor
  · rintro ⟨i, hi, rfl⟩
    have hafter := (firstIndex_le_iff hstep a (firstIndex step a + i)).mp (by omega)
    have hbefore := (lt_firstIndex_iff hstep b (firstIndex step a + i)).mp (by omega)
    exact ⟨dvd_mul_left _ _, hafter, hbefore⟩
  · rintro ⟨⟨i, rfl⟩, hafter, hbefore⟩
    rw [mul_comm] at hafter hbefore
    have hfrom := (firstIndex_le_iff hstep a i).mpr hafter
    have hto := (lt_firstIndex_iff hstep b i).mpr hbefore
    refine ⟨(i - firstIndex step a).toNat, by omega, ?_⟩
    rw [Int.toNat_of_nonneg (by omega), add_sub_cancel, mul_comm]

theorem multiples_ascending (hstep : 0 < step) (a b : ℤ) :
    (multiples step a b).Pairwise (· < ·) := by
  refine List.pairwise_map.mpr (List.pairwise_lt_range.imp fun {i j} hij => ?_)
  exact mul_lt_mul_of_pos_right (by omega) hstep

/-- **A range has at most one multiple more than it has steps.** -/
theorem length_multiples_le (hstep : 0 < step) (hab : a ≤ b) :
    ((multiples step a b).length : ℤ) ≤ (b - a) / step + 1 := by
  rw [multiples, List.length_map, List.length_range]
  have hfirst : a ≤ firstIndex step a * step := (firstIndex_le_iff hstep a _).mp le_rfl
  have hlast : (firstIndex step b - 1) * step < b :=
    (lt_firstIndex_iff hstep b _).mp (by omega)
  have hsteps : firstIndex step b - 1 - firstIndex step a ≤ (b - a) / step := by
    rw [Int.le_ediv_iff_mul_le hstep, sub_mul]
    omega
  have hnonneg : 0 ≤ (b - a) / step := Int.ediv_nonneg (by omega) hstep.le
  omega

/-- Two multiples that differ are at least a step apart. -/
theorem add_step_le {s t : ℤ} (hs : step ∣ s) (ht : step ∣ t) (hlt : s < t) :
    s + step ≤ t := by
  have := Int.le_of_dvd (sub_pos.mpr hlt) (Int.dvd_sub ht hs)
  omega

/-! ## Instants a whole number of steps apart -/

/-- An instant steps away from `c` is not less than a step before it. -/
theorem le_of_dvd_sub {s c : ℤ} (h : step ∣ s - c) (hlt : c - step < s) : c ≤ s := by
  have hnext : step ∣ s - c + step := Int.dvd_add h (Int.dvd_refl step)
  have hstep : step ≤ s - c + step := Int.le_of_dvd (by omega) hnext
  omega

/-- **Every step holds one of them.** -/
theorem eq_of_dvd_sub {s c : ℤ} (h : step ∣ s - c) (hs : s ≤ t) (hs' : t < s + step)
    (hc : c ≤ t) (hc' : t < c + step) : s = c := by
  have h' : step ∣ c - s := by
    rw [← Int.neg_sub]
    exact Int.dvd_neg.mpr h
  have hcs : c ≤ s := le_of_dvd_sub h (by omega)
  have hsc : s ≤ c := le_of_dvd_sub h' (by omega)
  omega

/-! ## The first elements of an ascending list -/

section Ascending

universe u

variable {α : Type u} [LinearOrder α] {l : List α} {n : ℕ} {last x : α}

/-- **The first `n` elements of an ascending list are its elements up to the last of them.** -/
theorem mem_take_of_ascending (h : l.Pairwise (· < ·)) (hlast : (l.take n).getLast? = some last) :
    x ∈ l.take n ↔ x ∈ l ∧ x ≤ last := by
  obtain ⟨front, hfront⟩ := List.getLast?_eq_some_iff.mp hlast
  have hsplit : l = front ++ [last] ++ l.drop n := by
    rw [← hfront, List.take_append_drop]
  rw [hfront]
  rw [hsplit, List.pairwise_append, List.pairwise_append] at h
  obtain ⟨⟨-, -, hbefore⟩, -, hafter⟩ := h
  constructor
  · intro hx
    refine ⟨hsplit ▸ List.mem_append_left _ hx, ?_⟩
    rcases List.mem_append.mp hx with hx | hx
    · exact (hbefore x hx last (List.mem_singleton_self last)).le
    · exact (List.mem_singleton.mp hx).le
  · rintro ⟨hx, hle⟩
    rw [hsplit] at hx
    rcases List.mem_append.mp hx with hx | hx
    · exact hx
    · have hlate := hafter last (List.mem_append_right _ (List.mem_singleton_self last)) x hx
      exact absurd hle hlate.not_ge

end Ascending

end TradeMind.Library
