import Mathlib.Algebra.BigOperators.Group.Finset.Piecewise
import Mathlib.Algebra.GroupWithZero.Nat

/-!
# Sums over the fibers of a key

A sum over a list is the sum over the keys of the sums over the elements with that key, as long
as every key of an element is listed once (`sum_fibers`).  What is selected or known adds up with
zeros for the rest (`length_filter_eq_sum`, `sum_filterMap`).
-/

set_option autoImplicit false

namespace TradeMind.Library

universe u v w

variable {α : Type u} {κ : Type v} {M : Type w} [DecidableEq κ] [AddCommMonoid M]
  {key : α → κ} {keys : List κ} {l : List α}

/-- **A sum is the sum of its fibers.** -/
theorem sum_fibers (f : α → M) (hnodup : keys.Nodup) (hcover : ∀ a ∈ l, key a ∈ keys) :
    (keys.map fun k => ((l.filter fun a => key a = k).map f).sum).sum = (l.map f).sum := by
  induction l with
  | nil => simp
  | cons a l ih =>
    -- the first element adds its value to the fiber of its own key
    have hfiber : ∀ k, (((a :: l).filter fun a => key a = k).map f).sum =
        (if key a = k then f a else 0) + ((l.filter fun a => key a = k).map f).sum := by
      intro k
      by_cases hk : key a = k
      · simp [hk]
      · simp [hk]
    have hfirst : (keys.map fun k => if key a = k then f a else 0).sum = f a := by
      rw [← List.sum_toFinset _ hnodup, Finset.sum_ite_eq,
        if_pos (List.mem_toFinset.mpr (hcover a List.mem_cons_self))]
    simp only [hfiber, List.sum_map_add, hfirst, List.map_cons, List.sum_cons,
      ih fun b hb => hcover b (List.mem_cons_of_mem a hb)]

omit [DecidableEq κ] in
/-- The values a partial function has add up with zeros for the others. -/
theorem sum_filterMap (f : α → Option M) (l : List α) :
    (l.filterMap f).sum = (l.map fun a => (f a).getD 0).sum := by
  induction l with
  | nil => rfl
  | cons a l ih =>
    cases h : f a with
    | none => simp [h, ih]
    | some x => simp [h, ih]

omit [DecidableEq κ] [AddCommMonoid M] in
/-- A selection has as many elements as its indicator adds up to. -/
theorem length_filter_eq_sum (p : α → Bool) (l : List α) :
    (l.filter p).length = (l.map fun a => (p a).toNat).sum := by
  induction l with
  | nil => rfl
  | cons a l ih => cases h : p a <;> simp [h, ih, Nat.add_comm]

end TradeMind.Library
