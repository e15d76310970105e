import Mathlib.Algebra.Order.Field.Basic
import Mathlib.Algebra.Order.SuccPred.PartialSups
import Mathlib.Data.Nat.SuccPred

/-!
# Declines from a running peak

The depth of a sequence at an index is its decline from the highest value so far, as a
fraction of it.  A loop over the values that carries the running peak finds the greatest depth
(`foldl_worstStep`) and the list of positive ones (`foldl_depthsStep`); on positive values the
greatest depth is also the greatest decline between any two of them (`isGreatest_declines`).
-/

set_option autoImplicit false

namespace TradeMind.Library

universe u v

variable {α : Type u} [Field α] [LinearOrder α]

/-- The decline at `j` from the highest value so far, as a fraction of it. -/
def depth (e : ℕ → α) (j : ℕ) : α := (partialSups e j - e j) / partialSups e j

/-- One value: the running peak and the greatest depth. -/
def worstStep (acc : α × α) (x : α) : α × α :=
  let peak := max acc.1 x
  (peak, if 0 < peak then max acc.2 ((peak - x) / peak) else acc.2)

/-- One value: the running peak and the depths of the values below it. -/
def depthsStep (acc : α × List α) (x : α) : α × List α :=
  let peak := max acc.1 x
  (peak, if 0 < peak ∧ x < peak then acc.2 ++ [(peak - x) / peak] else acc.2)

/-- The values after the first. -/
def laterValues (e : ℕ → α) (n : ℕ) : List α := (List.range n).map fun j => e (j + 1)

/-- The indices up to `n` whose value lies below the running peak. -/
def underwater (e : ℕ → α) (n : ℕ) : List ℕ :=
  ((List.range n).map (· + 1)).filter fun j => e j < partialSups e j

omit [Field α] in
/-- A running maximum is the greatest value so far. -/
theorem isGreatest_partialSups (f : ℕ → α) (n : ℕ) :
    IsGreatest (f '' Set.Iic n) (partialSups f n) := by
  constructor
  · obtain ⟨j, hj, heq⟩ := exists_partialSups_eq f n
    exact ⟨j, hj, heq.symm⟩
  · rintro _ ⟨j, hj, rfl⟩
    exact le_partialSups_of_le f hj

variable {e : ℕ → α} {n : ℕ}

/-- The peak stays at or above the first value. -/
theorem partialSups_pos (h0 : 0 < e 0) (j : ℕ) : 0 < partialSups e j :=
  h0.trans_le (le_partialSups_of_le e (Nat.zero_le j))

omit [Field α] [LinearOrder α] in
/-- The values after the first, one more. -/
theorem laterValues_succ (e : ℕ → α) (n : ℕ) :
    laterValues e (n + 1) = laterValues e n ++ [e (n + 1)] := by
  rw [laterValues, List.range_succ, List.map_append]
  rfl

omit [Field α] in
/-- The values below the running peak, one more. -/
theorem underwater_succ (e : ℕ → α) (n : ℕ) :
    underwater e (n + 1) =
      underwater e n ++ if e (n + 1) < partialSups e (n + 1) then [n + 1] else [] := by
  rw [underwater, List.range_succ, List.map_append, List.filter_append]
  simp only [List.map_cons, List.map_nil, List.filter_cons, List.filter_nil, decide_eq_true_eq]
  rfl

theorem depth_zero (e : ℕ → α) : depth e 0 = 0 := by
  rw [depth, partialSups_zero, sub_self, zero_div]

/-- **The loop for the greatest depth.** -/
theorem foldl_worstStep (h0 : 0 < e 0) (n : ℕ) :
    (laterValues e n).foldl worstStep (e 0, 0) =
      (partialSups e n, partialSups (depth e) n) := by
  induction n with
  | zero => rw [partialSups_zero, partialSups_zero, depth_zero]; rfl
  | succ n ih =>
    have hpos : 0 < max (partialSups e n) (e (n + 1)) :=
      (partialSups_pos h0 n).trans_le (le_max_left _ _)
    rw [laterValues_succ, List.foldl_append, ih, List.foldl_cons, List.foldl_nil, worstStep,
      partialSups_add_one e n, partialSups_add_one (depth e) n, depth, partialSups_add_one e n]
    simp only [hpos, if_true]

/-- **The loop for the depths below the peak.** -/
theorem foldl_depthsStep (h0 : 0 < e 0) (n : ℕ) :
    (laterValues e n).foldl depthsStep (e 0, []) =
      (partialSups e n, (underwater e n).map (depth e)) := by
  induction n with
  | zero => rw [partialSups_zero]; rfl
  | succ n ih =>
    have hpos : 0 < max (partialSups e n) (e (n + 1)) :=
      (partialSups_pos h0 n).trans_le (le_max_left _ _)
    rw [laterValues_succ, List.foldl_append, ih, List.foldl_cons, List.foldl_nil, depthsStep,
      underwater_succ, partialSups_add_one e n]
    by_cases hbelow : e (n + 1) < max (partialSups e n) (e (n + 1))
    · simp only [hpos, hbelow, and_self, if_true, List.map_append, List.map_cons, List.map_nil,
        depth, partialSups_add_one e n]
    · simp only [hbelow, and_false, if_false, List.append_nil]

omit [LinearOrder α] in
/-- Running totals are the first value and the later ones. -/
theorem scanl_add_eq {ι : Type u} (f : ι → α) (s : α) (l : List ι) :
    l.scanl (fun acc x => acc + f x) s =
      s :: laterValues (fun j => s + ((l.take j).map f).sum) l.length := by
  induction l generalizing s with
  | nil => rfl
  | cons x l ih =>
    rw [List.scanl_cons, ih, List.length_cons, laterValues, laterValues, List.range_succ_eq_map,
      List.map_cons, List.map_map]
    simp [Function.comp_def, add_assoc]

omit [Field α] [LinearOrder α] in
/-- The values of a list after its first. -/
theorem laterValues_getD (a d : α) (l : List α) :
    laterValues (fun j => (a :: l).getD j d) l.length = l := by
  refine List.ext_getElem (by simp [laterValues]) fun j hj _ => ?_
  have hj : j < l.length := by simpa [laterValues] using hj
  simp [laterValues, hj]

omit [LinearOrder α] in
/-- The running totals after the first are the total after one value and the later ones. -/
theorem scanl_tail_cons {ι : Type v} (f : ι → α) (e : α) (a : ι) (l : List ι) :
    ((a :: l).scanl (fun acc a => acc + f a) e).tail =
      (e + f a) :: (l.scanl (fun acc a => acc + f a) (e + f a)).tail := by
  rw [List.scanl_cons, List.tail_cons]
  cases l with
  | nil => rfl
  | cons b l => rw [List.scanl_cons, List.tail_cons]

/-- A loop that adds up the values as it goes is the loop over the running totals. -/
theorem foldl_totals {ι : Type u} (f : ι → α) (s p w : α) (l : List ι) :
    (l.foldl (fun (acc : α × α × α) x =>
        (acc.1 + f x, worstStep acc.2 (acc.1 + f x))) (s, p, w)).2 =
      (l.scanl (fun acc x => acc + f x) s).tail.foldl worstStep (p, w) := by
  induction l generalizing s p w with
  | nil => rfl
  | cons x l ih =>
    rw [List.foldl_cons, ih, scanl_tail_cons, List.foldl_cons]

section Ordered

variable [IsStrictOrderedRing α]

theorem depth_nonneg (h0 : 0 < e 0) (j : ℕ) : 0 ≤ depth e j :=
  div_nonneg (sub_nonneg.mpr (le_partialSups e j)) (partialSups_pos h0 j).le

/-- On positive values, a decline between two of them is at most the depth at the later one. -/
theorem decline_le_depth {i j : ℕ} (hij : i ≤ j) (hi : 0 < e i) (hj : 0 < e j) :
    (e i - e j) / e i ≤ depth e j := by
  have hpeak : e i ≤ partialSups e j := le_partialSups_of_le e hij
  rw [depth, sub_div, sub_div, div_self hi.ne', div_self (hi.trans_le hpeak).ne']
  exact sub_le_sub_left (div_le_div_of_nonneg_left hj.le hi hpeak) 1

/-- **The greatest decline.**  On positive values the greatest depth is the greatest decline
from one value to a later one. -/
theorem isGreatest_declines (hpos : ∀ k ≤ n, 0 < e k) :
    IsGreatest {d | ∃ i j, i ≤ j ∧ j ≤ n ∧ d = (e i - e j) / e i}
      (partialSups (depth e) n) := by
  obtain ⟨⟨j, hj, hattained⟩, hbound⟩ := isGreatest_partialSups (depth e) n
  constructor
  · obtain ⟨i, hi, hpeak⟩ := exists_partialSups_eq e j
    refine ⟨i, j, hi, hj, ?_⟩
    rw [← hattained, depth, hpeak]
  · rintro _ ⟨i, k, hik, hk, rfl⟩
    exact (decline_le_depth hik (hpos i (hik.trans hk)) (hpos k hk)).trans (hbound ⟨k, hk, rfl⟩)

end Ordered

end TradeMind.Library
